import Workbench.Toml.Assembly
import Workbench.Toml.Quoted
import Workbench.Toml.Scalar
/-!
# Reading TOML

A document is a sequence of lines: headers, keys with values, comments and empty lines. Lists may
run over several lines, tables in braces may not.
-/
namespace Workbench.Toml

def isKeyChar (c : Char) : Bool := c.isAlphanum || c == '_' || c == '-'

def keyPart (s : List Char) : Option (String × List Char) :=
  let s := skipSpace s
  match s.takeWhile isKeyChar with
  | [] => (quotedKey s).map fun (part, rest) => (part, skipSpace rest)
  | part => some (String.ofList part, skipSpace (s.dropWhile isKeyChar))

def key : (room : Nat) → Reader (List String)
  | 0, _ => none
  | room + 1, s =>
    match keyPart s with
    | none => none
    | some (part, '.' :: rest) => (key room rest).map fun (parts, rest) => (part :: parts, rest)
    | some (part, rest) => some ([part], rest)

/-- A text without white space, line breaks and comments in front. -/
def skipLines : List Char → List Char
  | '\r' :: '\n' :: rest => skipLines rest
  | c :: rest =>
    if isSpace c || c = '\n' then skipLines rest
    else if c = '#' && breakLength (rest.dropWhile isPlain) != 0 then
      skipLines (rest.dropWhile isPlain)
    else c :: rest
  | [] => []
termination_by s => s.length
decreasing_by
  all_goals simp only [List.length_cons]
  · omega
  · omega
  · exact Nat.lt_succ_of_le (List.dropWhile_sublist _).length_le

def word (w : String) (v : Toml) (s : List Char) : Option (Toml × List Char) :=
  if w.toList.isPrefixOf s then some (v, s.drop w.length) else none

/-- A value without parts: text, number, truth value, date or time. -/
def scalar (s : List Char) : Option (Toml × List Char) :=
  match s with
  | '"' :: _ | '\'' :: _ => (quoted s).map fun (t, rest) => (.text t, rest)
  | 't' :: _ => word "true" (.bool true) s
  | 'f' :: _ => word "false" (.bool false) s
  | 'i' :: _ => word "inf" .real s
  | 'n' :: _ => word "nan" .real s
  | _ =>
    match afterMoment? s with
    | some rest => some (.moment, rest)
    | none => number s

mutual

def value : (fuel room : Nat) → Reader Toml
  | 0, _, _ => none
  | fuel + 1, room, s =>
    match s with
    | '[' :: rest =>
      match room with
      | 0 => none
      | room + 1 => (items fuel room rest).map fun (vs, rest) => (.list vs, rest)
    | '\x7b' :: rest =>
      match room with
      | 0 => none
      | room + 1 =>
        match skipSpace rest with
        | '\x7d' :: rest => some (.table [], rest)
        | rest => do
          let (pairs, rest) ← pairs fuel room rest
          return (← ofPairs? pairs, rest)
    | s => scalar s

def items : (fuel room : Nat) → Reader (List Toml)
  | 0, _, _ => none
  | fuel + 1, room, s =>
    match skipLines s with
    | ']' :: rest => some ([], rest)
    | s => do
      let (v, rest) ← value fuel room s
      match skipLines rest with
      | ',' :: rest => (items fuel room rest).map fun (vs, rest) => (v :: vs, rest)
      | ']' :: rest => some ([v], rest)
      | _ => none

def pairs : (fuel room : Nat) → Reader (List (List String × Toml))
  | 0, _, _ => none
  | fuel + 1, room, s => do
    let (path, rest) ← key (nestingLimit - 1) s
    let (_, rest) ← mark '=' rest
    let (v, rest) ← value fuel room (skipSpace rest)
    match skipSpace rest with
    | ',' :: rest => (pairs fuel room rest).map fun (more, rest) => ((path, v) :: more, rest)
    | '\x7d' :: rest => some ([(path, v)], rest)
    | _ => none

end

/-- The text behind the end of a line: white space, a comment, and a line break unless the text
ends there. -/
def afterLine? (s : List Char) : Option (List Char) :=
  let s := dropComment (skipSpace s)
  if s = [] then some [] else if breakLength s = 0 then none else some (dropBreak s)

def statement (s : List Char) : Option (Statement × List Char) :=
  match s with
  | '[' :: '[' :: rest => do
    let (path, rest) ← key (nestingLimit - 1) rest
    let (_, rest) ← mark ']' rest
    let (_, rest) ← mark ']' rest
    return (.next path, rest)
  | '[' :: rest => do
    let (path, rest) ← key (nestingLimit - 1) rest
    let (_, rest) ← mark ']' rest
    return (.header path, rest)
  | _ => do
    let (path, rest) ← key (nestingLimit - 1) s
    let (_, rest) ← mark '=' rest
    let (v, rest) ← value (2 * s.length + 2) (nestingLimit - 1) (skipSpace rest)
    return (.entry path v, rest)

def statements : (fuel : Nat) → List Char → Option (List Statement)
  | 0, _ => none
  | fuel + 1, s =>
    match skipSpace s with
    | [] => some []
    | s =>
      match afterLine? s with
      | some rest => statements fuel rest
      | none => do
        let (first, rest) ← statement s
        let rest ← afterLine? rest
        return first :: (← statements fuel rest)

/-- The table that a document stands for. A byte order mark in front does not count. -/
def parse? (s : String) : Option Toml :=
  let s := match s.toList with
    | c :: rest => if c.toNat = 0xFEFF then rest else c :: rest
    | [] => []
  (statements (s.length + 1) s).bind ofStatements?

end Workbench.Toml
