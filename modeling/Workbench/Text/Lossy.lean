/-!
# Text from any bytes

Bytes are read as UTF-8. Where they are not well formed, the longest stretch that could have
begun a character, or else one byte, is replaced by the replacement character.
-/
namespace Workbench.Text

def replacement : Char := Char.ofNat 0xFFFD

/-- What the first byte of a character of several bytes says: how many bytes follow, the bounds
for the next one, and the part of the code point in the first byte. -/
def lead? (b : UInt8) : Option (Nat × UInt8 × UInt8 × Nat) :=
  if b < 0xC2 then none
  else if b < 0xE0 then some (1, 0x80, 0xBF, b.toNat - 0xC0)
  else if b < 0xF0 then
    some (2, if b = 0xE0 then 0xA0 else 0x80, if b = 0xED then 0x9F else 0xBF, b.toNat - 0xE0)
  else if b < 0xF5 then
    some (3, if b = 0xF0 then 0x90 else 0x80, if b = 0xF4 then 0x8F else 0xBF, b.toNat - 0xF0)
  else none

/-- The bytes at the front, at most `n`, that can follow; the bounds are those for the first. -/
def followers (low high : UInt8) : (n : Nat) → List UInt8 → List UInt8
  | 0, _ => []
  | _ + 1, [] => []
  | n + 1, b :: rest =>
    if low ≤ b && b ≤ high then b :: followers 0x80 0xBF n rest else []

def codePoint (part : Nat) (following : List UInt8) : Nat :=
  following.foldl (fun n b => n * 64 + (b.toNat - 0x80)) part

def decodeLossy : List UInt8 → List Char
  | [] => []
  | b :: rest =>
    if b < 0x80 then Char.ofNat b.toNat :: decodeLossy rest
    else match lead? b with
      | none => replacement :: decodeLossy rest
      | some (n, low, high, part) =>
        let following := followers low high n rest
        let c := if following.length = n then Char.ofNat (codePoint part following) else replacement
        c :: decodeLossy (rest.drop following.length)
termination_by bytes => bytes.length
decreasing_by all_goals simp only [List.length_cons, List.length_drop]; omega

end Workbench.Text
