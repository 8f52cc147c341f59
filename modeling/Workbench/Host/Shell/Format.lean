import Workbench.Host.Shell.Sum
/-!
# Formatted output of shell scripts

A format is a text with escapes and places for arguments. It is used again as long as arguments
are left.
-/
namespace Workbench.Shell

def bytesOf (s : List Char) : List UInt8 := (String.ofList s).toUTF8.toList

def letterEscape? (c : Char) : Option UInt8 :=
  match c with
  | 'a' => some 7
  | 'b' => some 8
  | 'f' => some 12
  | 'n' => some 10
  | 'r' => some 13
  | 't' => some 9
  | 'v' => some 11
  | '\\' => some 92
  | _ => none

/-- What is written behind a backslash, and what follows it. With `zeroFirst`, the digits of a
byte come behind a zero. -/
def escape (zeroFirst : Bool) (s : List Char) : List UInt8 × List Char :=
  match s with
  | [] => ([92], [])
  | c :: rest =>
    match letterEscape? c with
    | some b => ([b], rest)
    | none =>
      if Text.isDigitOf 8 c && (!zeroFirst || c = '0') then
        let digits := if zeroFirst then rest else c :: rest
        let ds := (digits.take 3).takeWhile (Text.isDigitOf 8)
        ([UInt8.ofNat (Text.numberOf 8 ds)], digits.drop ds.length)
      else if c = '"' || c = '\'' then (bytesOf [c], rest)
      else (92 :: bytesOf [c], rest)

/-- A text with its escapes carried out; the answer tells whether output goes on behind it. -/
def escaped (zeroFirst : Bool) : (fuel : Nat) → List Char → List UInt8 × Bool
  | 0, _ => ([], true)
  | _ + 1, [] => ([], true)
  | fuel + 1, c :: rest =>
    if c = '\\' then
      if rest.head? = some 'c' then ([], false)
      else
        let (bytes, rest) := escape zeroFirst rest
        let (more, goesOn) := escaped zeroFirst fuel rest
        (bytes ++ more, goesOn)
    else
      let (more, goesOn) := escaped zeroFirst fuel rest
      (bytesOf [c] ++ more, goesOn)

/-- How an argument is put in. -/
structure Place where
  left : Bool
  zeros : Bool
  plus : Bool
  width : Nat
  precision : Option Nat
  kind : Char

def place? (s : List Char) : Option (Place × List Char) :=
  let flags := s.takeWhile fun c => "-0+ #".toList.contains c
  let s := s.drop flags.length
  let width := s.takeWhile (Text.isDigitOf 10)
  let s := s.drop width.length
  let (precision, s) := match s with
    | '.' :: rest =>
      let ds := rest.takeWhile (Text.isDigitOf 10)
      (some (Text.numberOf 10 ds), rest.drop ds.length)
    | _ => (none, s)
  match s with
  | kind :: rest =>
    some (⟨flags.contains '-', flags.contains '0', flags.contains '+', Text.numberOf 10 width,
      precision, kind⟩, rest)
  | [] => none

def Place.fill (p : Place) (sign body : List Char) : List Char :=
  let missing := p.width - (sign.length + body.length)
  if p.left then sign ++ body ++ List.replicate missing ' '
  else if p.zeros then sign ++ List.replicate missing '0' ++ body
  else List.replicate missing ' ' ++ sign ++ body

def Place.number (p : Place) (base : Nat) (n : Int) : List Char :=
  let ds := Text.numeral base n.natAbs
  let ds := List.replicate (p.precision.getD 0 - ds.length) '0' ++ ds
  p.fill (if n < 0 then ['-'] else if p.plus then ['+'] else []) ds

def Place.put (p : Place) (arg : String) : List UInt8 :=
  let text := match p.precision with
    | some n => arg.toList.take n
    | none => arg.toList
  let plain := { p with zeros := false }
  match p.kind with
  | 'd' | 'i' | 'u' => bytesOf (p.number 10 (numberIn arg.toList))
  | 'x' => bytesOf (p.number 16 (numberIn arg.toList))
  | 'X' => bytesOf ((p.number 16 (numberIn arg.toList)).map Char.toUpper)
  | 'o' => bytesOf (p.number 8 (numberIn arg.toList))
  | 'c' => bytesOf (plain.fill [] (arg.toList.take 1))
  | 'b' => (escaped true (arg.length + 1) arg.toList).1
  | _ => bytesOf (plain.fill [] text)

/-- One use of a format. The answer tells which arguments are left and whether any was used. -/
def formatOnce : (fuel : Nat) → List Char → List String → List UInt8 × List String × Bool
  | 0, _, args => ([], args, false)
  | _ + 1, [], args => ([], args, false)
  | fuel + 1, c :: rest, args =>
    if c = '\\' then
      let (bytes, rest) := escape false rest
      let (more, args, used) := formatOnce fuel rest args
      (bytes ++ more, args, used)
    else if c = '%' then
      match rest with
      | '%' :: rest =>
        let (more, args, used) := formatOnce fuel rest args
        (37 :: more, args, used)
      | _ =>
        match place? rest with
        | none => ([37], args, false)
        | some (p, rest) =>
          let bytes := p.put (args.headD "")
          let (more, args, _) := formatOnce fuel rest (args.drop 1)
          (bytes ++ more, args, true)
    else
      let (more, args, used) := formatOnce fuel rest args
      (bytesOf [c] ++ more, args, used)

def formatAll (format : List Char) : (fuel : Nat) → List String → List UInt8
  | 0, _ => []
  | fuel + 1, args =>
    let (bytes, left, used) := formatOnce (format.length + 1) format args
    if used && left ≠ [] then bytes ++ formatAll format fuel left else bytes

end Workbench.Shell
