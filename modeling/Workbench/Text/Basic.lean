/-!
# Characters and their lists

Character properties are kept as increasing lists of closed ranges. White space is the Unicode
property of that name. Lists of characters are trimmed, cut at a separator, and searched for the
first place where another list occurs.
-/
namespace Workbench.Text

/-- Whether a code point lies in one of an increasing list of closed ranges. -/
def inRanges : List (Nat × Nat) → Nat → Bool
  | [], _ => false
  | (first, last) :: rest, n => if n < first then false else n ≤ last || inRanges rest n

def isBlank (c : Char) : Bool :=
  let n := c.toNat
  (0x9 ≤ n && n ≤ 0xD) || n == 0x20 || n == 0x85 || n == 0xA0 || n == 0x1680 ||
  (0x2000 ≤ n && n ≤ 0x200A) || n == 0x2028 || n == 0x2029 || n == 0x202F || n == 0x205F ||
  n == 0x3000

/-- A list without its longest suffix of elements that satisfy a test. -/
def dropLastWhile (p : α → Bool) (xs : List α) : List α :=
  (xs.reverse.dropWhile p).reverse

def trim (s : String) : String :=
  String.ofList (dropLastWhile isBlank (s.toList.dropWhile isBlank))

/-- The pieces between separators; a list without the separator is one piece. -/
def splitAt (sep : Char) : List Char → List (List Char)
  | [] => [[]]
  | c :: rest =>
    if c = sep then [] :: splitAt sep rest
    else match splitAt sep rest with
      | [] => [[c]]
      | piece :: more => (c :: piece) :: more

def joinWith (sep : List Char) : List (List Char) → List Char
  | [] => []
  | [piece] => piece
  | piece :: more => piece ++ sep ++ joinWith sep more

theorem splitAt_ne_nil (sep : Char) (cs : List Char) : splitAt sep cs ≠ [] := by
  cases cs with
  | nil => simp [splitAt]
  | cons c rest =>
    unfold splitAt
    split
    · simp
    · split <;> simp

theorem joinWith_splitAt (sep : Char) (cs : List Char) : joinWith [sep] (splitAt sep cs) = cs := by
  induction cs with
  | nil => rfl
  | cons c rest ih =>
    unfold splitAt
    split
    next same =>
      cases eq : splitAt sep rest with
      | nil => exact absurd eq (splitAt_ne_nil sep rest)
      | cons piece more => simp [joinWith, ← eq, ih, same]
    next =>
      cases eq : splitAt sep rest with
      | nil => exact absurd eq (splitAt_ne_nil sep rest)
      | cons piece more =>
        rw [eq] at ih
        cases more with
        | nil => simpa [joinWith] using ih
        | cons next more => simpa [joinWith] using ih

/-- What stands before the first occurrence of `needle`, and what follows it. -/
def cutAt? (needle : List Char) : List Char → Option (List Char × List Char)
  | [] => if needle = [] then some ([], []) else none
  | c :: rest =>
    if needle.isPrefixOf (c :: rest) then some ([], (c :: rest).drop needle.length)
    else (cutAt? needle rest).map fun (before, after) => (c :: before, after)

def occursIn (needle text : List Char) : Bool := (cutAt? needle text).isSome

def contains (text needle : String) : Bool := occursIn needle.toList text.toList

end Workbench.Text
