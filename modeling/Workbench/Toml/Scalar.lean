import Workbench.Text.Numeral
import Workbench.Toml.Basic
/-!
# Numbers, dates and times

Whole numbers fit into 64 bits with a sign and may be written in four bases. Digits may be
grouped by single underscores.
-/
namespace Workbench.Toml

/-- The further digits of a number, with an underscore in front of a digit left out. -/
def moreDigits (base : Nat) : Reader (List Char)
  | [] => some ([], [])
  | '_' :: d :: rest =>
    if Text.isDigitOf base d then (moreDigits base rest).map fun (ds, rest) => (d :: ds, rest)
    else none
  | d :: rest =>
    if Text.isDigitOf base d then (moreDigits base rest).map fun (ds, rest) => (d :: ds, rest)
    else if d = '_' then none
    else some ([], d :: rest)

def digits (base : Nat) : Reader (List Char)
  | [] => none
  | d :: rest =>
    if Text.isDigitOf base d then (moreDigits base rest).map fun (ds, rest) => (d :: ds, rest)
    else none

/-- The digits of a number that does not start with a zero, unless it is zero. -/
def plainDigits : Reader (List Char)
  | '0' :: rest => some (['0'], rest)
  | s => digits 10 s

/-- A sign, if there is one; the answer tells whether it is a minus. -/
def sign : List Char → Bool × List Char
  | '-' :: rest => (true, rest)
  | '+' :: rest => (false, rest)
  | s => (false, s)

def exponent? (s : List Char) : Option (Option Int × List Char) :=
  match s with
  | c :: rest =>
    if c = 'e' || c = 'E' then
      let (negative, rest) := sign rest
      (digits 10 rest).map fun (ds, rest) =>
        let n : Int := Text.numberOf 10 ds
        (some (if negative then -n else n), rest)
    else some (none, s)
  | [] => some (none, s)

def fraction? : List Char → Option (Option (List Char) × List Char)
  | '.' :: rest => (digits 10 rest).map fun (ds, rest) => (some ds, rest)
  | s => some (none, s)

/-- The least number, in units of one, that is nearer to 2 to the power 1024 than to any number
with 53 binary digits below. -/
def tooLarge : Nat := (Nat.pow 2 54 - 1) * Nat.pow 2 970

/-- Whether digits with a power of ten behind them stand for a number that is too large. -/
def overflows (ds : List Char) (power : Int) : Bool :=
  let ds := ds.dropWhile (· = '0')
  let size := ds.length + power
  if ds = [] || size < 300 then false
  else if 310 < size then true
  else if power < 0 then tooLarge * Nat.pow 10 power.natAbs ≤ Text.numberOf 10 ds
  else tooLarge ≤ Text.numberOf 10 ds * Nat.pow 10 power.natAbs

def whole? (i : Int) : Option Toml :=
  if Int64.minValue.toInt ≤ i ∧ i ≤ Int64.maxValue.toInt then some (.whole i) else none

def decimalNumber (s : List Char) : Option (Toml × List Char) := do
  let (negative, s) := sign s
  if "inf".toList.isPrefixOf s || "nan".toList.isPrefixOf s then return (.real, s.drop 3)
  let (ds, s) ← plainDigits s
  let (behind, s) ← fraction? s
  let (power, s) ← exponent? s
  if behind.isNone && power.isNone then
    let n : Int := Text.numberOf 10 ds
    return (← whole? (if negative then -n else n), s)
  else
    let behind := behind.getD []
    if !negative && overflows (ds ++ behind) (power.getD 0 - behind.length) then none
    else return (.real, s)

def basedNumber (base : Nat) (s : List Char) : Option (Toml × List Char) := do
  let (ds, s) ← digits base s
  return (← whole? (Text.numberOf base ds), s)

def number : Reader Toml
  | '0' :: 'x' :: rest => basedNumber 16 rest
  | '0' :: 'o' :: rest => basedNumber 8 rest
  | '0' :: 'b' :: rest => basedNumber 2 rest
  | s => decimalNumber s

def field (width low high : Nat) (s : List Char) : Option (Nat × List Char) :=
  let ds := s.take width
  let n := Text.numberOf 10 ds
  if ds.length = width ∧ ds.all (Text.isDigitOf 10) ∧ low ≤ n ∧ n ≤ high then
    some (n, s.drop width)
  else none

def mark (c : Char) : Reader Unit
  | x :: rest => if x = c then some ((), rest) else none
  | [] => none

def daysIn (year month : Nat) : Nat :=
  if month = 2 then
    if year % 4 = 0 ∧ (year % 100 ≠ 0 ∨ year % 400 = 0) then 29 else 28
  else if month = 4 || month = 6 || month = 9 || month = 11 then 30
  else 31

def afterDate? (s : List Char) : Option (List Char) := do
  let (year, s) ← field 4 0 9999 s
  let (_, s) ← mark '-' s
  let (month, s) ← field 2 1 12 s
  let (_, s) ← mark '-' s
  let (_, s) ← field 2 1 (daysIn year month) s
  return s

def afterParts (s : List Char) : List Char :=
  match s with
  | '.' :: d :: rest =>
    if Text.isDigitOf 10 d then rest.dropWhile (Text.isDigitOf 10) else s
  | _ => s

def afterTime? (s : List Char) : Option (List Char) := do
  let (_, s) ← field 2 0 23 s
  let (_, s) ← mark ':' s
  let (_, s) ← field 2 0 59 s
  let (_, s) ← mark ':' s
  let (_, s) ← field 2 0 60 s
  return afterParts s

/-- The text behind a distance from universal time, if there is one. -/
def afterOffset? (s : List Char) : Option (List Char) :=
  match s with
  | c :: rest =>
    if c = 'Z' || c = 'z' then some rest
    else if c = '+' || c = '-' then do
      let (_, s) ← field 2 0 23 rest
      let (_, s) ← mark ':' s
      let (_, s) ← field 2 0 59 s
      return s
    else some s
  | [] => some s

def afterMoment? (s : List Char) : Option (List Char) :=
  match afterDate? s with
  | none => afterTime? s
  | some s =>
    match s with
    | c :: rest =>
      if c = 'T' || c = 't' || c = ' ' then
        match afterTime? rest with
        | some s => afterOffset? s
        | none => some s
      else some s
    | [] => some s

end Workbench.Toml
