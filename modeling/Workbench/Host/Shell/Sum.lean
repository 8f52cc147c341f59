import Workbench.Text.Basic
import Workbench.Text.Numeral
/-!
# Arithmetic in shell scripts

Sums of whole numbers and variables, with the usual precedence of operators. Comparisons give one
or zero.
-/
namespace Workbench.Shell

/-- The operators of one level of precedence; the loosest level comes first, and of two operators
with one beginning the longer one. -/
def operatorLevels : List (List String) :=
  [["||"], ["&&"], ["==", "!="], ["<=", ">=", "<", ">"], ["+", "-"], ["*", "/", "%"]]

def truth (b : Bool) : Int := if b then 1 else 0

def operate (op : String) (a b : Int) : Option Int :=
  match op with
  | "||" => some (truth (a != 0 || b != 0))
  | "&&" => some (truth (a != 0 && b != 0))
  | "==" => some (truth (a == b))
  | "!=" => some (truth (a != b))
  | "<=" => some (truth (decide (a ≤ b)))
  | ">=" => some (truth (decide (b ≤ a)))
  | "<" => some (truth (decide (a < b)))
  | ">" => some (truth (decide (b < a)))
  | "+" => some (a + b)
  | "-" => some (a - b)
  | "*" => some (a * b)
  | "/" => if b = 0 then none else some (a.tdiv b)
  | "%" => if b = 0 then none else some (a.tmod b)
  | _ => none

/-- The number that a text stands for: in hexadecimal, octal or decimal, or nothing. -/
def numberIn (s : List Char) : Int :=
  match s with
  | '0' :: 'x' :: rest => Text.numberOf 16 rest
  | '0' :: rest => Text.numberOf 8 rest
  | '-' :: rest => -(Text.numberOf 10 rest : Int)
  | _ => Text.numberOf 10 s

def skipBlanks (s : List Char) : List Char := s.dropWhile Char.isWhitespace

mutual

/-- The value of a sum whose operators are at least as tight as a level. -/
def sumAt (value : String → String) :
    (fuel : Nat) → List (List String) → List Char → Option (Int × List Char)
  | 0, _, _ => none
  | fuel + 1, [], s =>
    match skipBlanks s with
    | '(' :: rest => do
      let (n, rest) ← sumAt value fuel operatorLevels rest
      match skipBlanks rest with
      | ')' :: rest => some (n, rest)
      | _ => none
    | '-' :: rest => (sumAt value fuel [] rest).map fun (n, rest) => (-n, rest)
    | '+' :: rest => sumAt value fuel [] rest
    | '!' :: rest => (sumAt value fuel [] rest).map fun (n, rest) => (truth (n == 0), rest)
    | '$' :: rest => sumAt value fuel [] rest
    | c :: rest =>
      let name := (c :: rest).takeWhile fun c => c.isAlphanum || c == '_'
      if name = [] then none
      else
        let n := if c.isDigit then numberIn name else numberIn (value (String.ofList name)).toList
        some (n, (c :: rest).drop name.length)
    | [] => none
  | fuel + 1, level :: tighter, s => do
    let (first, rest) ← sumAt value fuel tighter s
    sumRest value fuel level tighter first rest

def sumRest (value : String → String) : (fuel : Nat) → List String → List (List String) → Int →
    List Char → Option (Int × List Char)
  | 0, _, _, _, _ => none
  | fuel + 1, level, tighter, first, s =>
    let s := skipBlanks s
    match level.find? fun op => op.toList.isPrefixOf s with
    | none => some (first, s)
    | some op => do
      let (second, rest) ← sumAt value fuel tighter (s.drop op.length)
      sumRest value fuel level tighter (← operate op first second) rest

end

def sum? (value : String → String) (s : List Char) : Option Int :=
  match sumAt value (16 * s.length + 16) operatorLevels s with
  | some (n, rest) => if skipBlanks rest = [] then some n else none
  | none => none

end Workbench.Shell
