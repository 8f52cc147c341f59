import Workbench.Address.Basic
/-!
# Reading network addresses

The first family is four decimal bytes; the second is eight hexadecimal groups, of which one run
may be left out and the last two may be written as four bytes. A socket address adds a port, and
encloses an address of the second family in brackets.
-/
namespace Workbench.Address

/-- What can be read at the front of a text, and the text that is left. -/
abbrev Reader (α : Type) := List Char → Option (α × List Char)

def mark (c : Char) : Reader Unit
  | x :: rest => if x = c then some ((), rest) else none
  | [] => none

/-- All digits of a base at the front, as a number up to `limit`. At most `width` digits are
allowed if it is given, and a leading zero before other digits only if `padded`. -/
def number (base : Nat) (width : Option Nat) (padded : Bool) (limit : Nat) : Reader Nat := fun s =>
  let digits := s.takeWhile (Text.isDigitOf base)
  let n := Text.numberOf base digits
  if digits = [] || width.any (· < digits.length) || (!padded && digits.head? == some '0' &&
      1 < digits.length) || limit < n then none
  else some (n, s.drop digits.length)

/-- A part of a sequence: all but the first follow a separator. -/
def part (sep : Char) (index : Nat) (read : Reader α) : Reader α := fun s =>
  if index = 0 then read s
  else (mark sep s).bind fun (_, rest) => read rest

def byte : Reader UInt8 := fun s =>
  (number 10 (some 3) false 255 s).map fun (n, rest) => (UInt8.ofNat n, rest)

def fourBytes : Reader (UInt8 × UInt8 × UInt8 × UInt8) := fun s => do
  let (a, s) ← byte s
  let (b, s) ← part '.' 1 byte s
  let (c, s) ← part '.' 2 byte s
  let (d, s) ← part '.' 3 byte s
  some ((a, b, c, d), s)

/-- Up to `room` groups of the second family, of which `index` are read already; the last two
may be written as four bytes, and the answer tells whether they were. -/
def groups (index : Nat) : Nat → List Char → List UInt16 × Bool × List Char
  | 0, s => ([], false, s)
  | room + 1, s =>
    match if room = 0 then none else part ':' index fourBytes s with
    | some ((a, b, c, d), rest) =>
      ([a.toUInt16 <<< 8 ||| b.toUInt16, c.toUInt16 <<< 8 ||| d.toUInt16], true, rest)
    | none =>
      match part ':' index (number 16 (some 4) true 0xFFFF) s with
      | some (n, rest) =>
        let (more, embedded, rest) := groups (index + 1) room rest
        (UInt16.ofNat n :: more, embedded, rest)
      | none => ([], false, s)

def ofGroups? (gs : List UInt16) : Option HostAddress :=
  if h : gs.toArray.size = 8 then some (.v6 ⟨gs.toArray, h⟩) else none

def sixth : Reader HostAddress := fun s => do
  let (front, embedded, s) := groups 0 8 s
  if front.length = 8 then
    (ofGroups? front).map (·, s)
  else if embedded then none
  else
    let (_, s) ← mark ':' s
    let (_, s) ← mark ':' s
    let (back, _, s) := groups 0 (7 - front.length) s
    let zeros := List.replicate (8 - front.length - back.length) 0
    (ofGroups? (front ++ zeros ++ back)).map (·, s)

def port : Reader UInt16 := fun s => do
  let (_, s) ← mark ':' s
  let (n, s) ← number 10 none true 0xFFFF s
  some (UInt16.ofNat n, s)

def zone : Reader UInt32 := fun s => do
  let (_, s) ← mark '%' s
  let (n, s) ← number 10 none true 0xFFFFFFFF s
  some (UInt32.ofNat n, s)

def socketV4 : Reader SocketAddress := fun s => do
  let ((a, b, c, d), s) ← fourBytes s
  let (p, s) ← port s
  some (⟨.v4 #v[a, b, c, d], p, 0⟩, s)

def socketV6 : Reader SocketAddress := fun s => do
  let (_, s) ← mark '[' s
  let (host, s) ← sixth s
  let (z, s) := (zone s).getD (0, s)
  let (_, s) ← mark ']' s
  let (p, s) ← port s
  some (⟨host, p, z⟩, s)

def parse? (s : String) : Option SocketAddress :=
  match (socketV4 s.toList).orElse fun _ => socketV6 s.toList with
  | some (a, []) => some a
  | _ => none

end Workbench.Address
