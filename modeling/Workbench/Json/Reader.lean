import Workbench.Json.Basic
import Workbench.Text.Numeral
/-!
# Reading JSON

A reader takes a value off the front of a text. The whole text must be one value with white
space around it. How deep the reading may nest is bounded by the length of the text, which every
value that it holds respects.
-/
namespace Workbench.Json

def isSpace (c : Char) : Bool := c == ' ' || c == '\n' || c == '\t' || c == '\r'

def skip (s : List Char) : List Char := s.dropWhile isSpace

/-- A piece of a string: a character, or half of a surrogate pair by its number. -/
inductive Unit16 where
  | char (c : Char)
  | half (n : Nat)

def fourDigits : List Char → Option (Nat × List Char)
  | a :: b :: c :: d :: rest =>
    if [a, b, c, d].all (Text.isDigitOf 16) then some (Text.numberOf 16 [a, b, c, d], rest)
    else none
  | _ => none

def shortEscape? (c : Char) : Option Char :=
  match c with
  | '"' => some '"'
  | '\\' => some '\\'
  | '/' => some '/'
  | 'b' => some (Char.ofNat 8)
  | 'f' => some (Char.ofNat 12)
  | 'n' => some '\n'
  | 'r' => some '\r'
  | 't' => some '\t'
  | _ => none

/-- The pieces of a string up to its closing quotation mark, and what follows that. -/
def pieces : (fuel : Nat) → List Char → Option (List Unit16 × List Char)
  | 0, _ => none
  | _ + 1, [] => none
  | fuel + 1, c :: rest =>
    if c = '"' then some ([], rest)
    else if c.toNat < 32 then none
    else if c = '\\' then
      match rest with
      | 'u' :: rest => do
        let (n, rest) ← fourDigits rest
        let (more, rest) ← pieces fuel rest
        let piece := if 0xD800 ≤ n ∧ n < 0xE000 then Unit16.half n else .char (Char.ofNat n)
        some (piece :: more, rest)
      | e :: rest => do
        let c ← shortEscape? e
        let (more, rest) ← pieces fuel rest
        some (.char c :: more, rest)
      | [] => none
    else do
      let (more, rest) ← pieces fuel rest
      some (.char c :: more, rest)

def assemble : List Unit16 → Option (List Char)
  | [] => some []
  | .char c :: rest => (assemble rest).map (c :: ·)
  | .half high :: .half low :: rest =>
    if high < 0xDC00 ∧ 0xDC00 ≤ low then
      (assemble rest).map (Char.ofNat (0x10000 + (high - 0xD800) * 0x400 + (low - 0xDC00)) :: ·)
    else none
  | .half _ :: _ => none

def stringTail (s : List Char) : Option (Option String × List Char) := do
  let (units, rest) ← pieces (s.length + 1) s
  some ((assemble units).map String.ofList, rest)

/-- The digits at the front of a text, of which there must be one. -/
def digits (s : List Char) : Option (List Char × List Char) :=
  match s.takeWhile (Text.isDigitOf 10) with
  | [] => none
  | ds => some (ds, s.dropWhile (Text.isDigitOf 10))

/-- What may follow the whole part of a number; the answer tells whether something did. -/
def numberTail (s : List Char) : Option (Bool × List Char) := do
  let (point, s) ← match s with
    | '.' :: rest => (digits rest).map fun (_, rest) => (true, rest)
    | _ => some (false, s)
  match s with
  | e :: rest =>
    if e = 'e' || e = 'E' then
      let rest := match rest with
        | sign :: more => if sign = '+' || sign = '-' then more else rest
        | [] => rest
      (digits rest).map fun (_, rest) => (true, rest)
    else some (point, s)
  | [] => some (point, s)

/-- A number. The whole part has no leading zero. -/
def number (s : List Char) : Option (Json × List Char) := do
  let (negative, s) := match s with
    | '-' :: rest => (true, rest)
    | _ => (false, s)
  let (ds, s) ← digits s
  if ds.head? = some '0' ∧ ds ≠ ['0'] then none
  let (isReal, s) ← numberTail s
  let n := Text.numberOf 10 ds
  if isReal || (negative && n = 0) then some (.real, s)
  else some (.whole (if negative then -(n : Int) else n), s)

def word (w : String) (v : Json) (s : List Char) : Option (Json × List Char) :=
  if w.toList.isPrefixOf s then some (v, s.drop w.length) else none

mutual

def value : (fuel : Nat) → List Char → Option (Json × List Char)
  | 0, _ => none
  | fuel + 1, s =>
    match skip s with
    | [] => none
    | c :: rest =>
      if c = '"' then (stringTail rest).map fun (t, rest) => (.string t, rest)
      else if c = '[' then
        match skip rest with
        | ']' :: rest => some (.array [], rest)
        | _ => do
          let (first, rest) ← value fuel rest
          let (more, rest) ← items fuel rest
          some (.array (first :: more), rest)
      else if c = '\x7b' then
        match skip rest with
        | '\x7d' :: rest => some (.object [], rest)
        | _ => do
          let (first, rest) ← member fuel rest
          let (more, rest) ← members fuel rest
          some (.object (first :: more), rest)
      else if c = 'n' then word "null" .null (c :: rest)
      else if c = 't' then word "true" (.bool true) (c :: rest)
      else if c = 'f' then word "false" (.bool false) (c :: rest)
      else number (c :: rest)

def items : (fuel : Nat) → List Char → Option (List Json × List Char)
  | 0, _ => none
  | fuel + 1, s =>
    match skip s with
    | ']' :: rest => some ([], rest)
    | ',' :: rest => do
      let (item, rest) ← value fuel rest
      let (more, rest) ← items fuel rest
      some (item :: more, rest)
    | _ => none

def member : (fuel : Nat) → List Char → Option ((Option String × Json) × List Char)
  | 0, _ => none
  | fuel + 1, s =>
    match skip s with
    | '"' :: rest => do
      let (name, rest) ← stringTail rest
      match skip rest with
      | ':' :: rest => do
        let (v, rest) ← value fuel rest
        some ((name, v), rest)
      | _ => none
    | _ => none

def members : (fuel : Nat) → List Char → Option (List (Option String × Json) × List Char)
  | 0, _ => none
  | fuel + 1, s =>
    match skip s with
    | '\x7d' :: rest => some ([], rest)
    | ',' :: rest => do
      let (first, rest) ← member fuel rest
      let (more, rest) ← members fuel rest
      some (first :: more, rest)
    | _ => none

end

def parse? (s : String) : Option Json :=
  match value (2 * s.length + 2) s.toList with
  | some (v, rest) => if skip rest = [] then some v else none
  | none => none

end Workbench.Json
