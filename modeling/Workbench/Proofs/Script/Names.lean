import Workbench.Proofs.Script.Fronts

/-!
# Names and white space

What scripts are written with. Tokens may stand apart by any white space, line breaks too, and where
one kind of characters ends and another begins a text is cut in one way only.
-/
namespace Workbench

/-- A text goes on with a test as long as it can in one way only. -/
theorem spans_unique {α : Type} {test : α → Bool} {xs ys rest rest' : List α}
    (inside : ∀ x ∈ xs, test x = true) (inside' : ∀ y ∈ ys, test y = true)
    (stops : ∀ x ∈ rest.head?, test x = false) (stops' : ∀ x ∈ rest'.head?, test x = false)
    (same : xs ++ rest = ys ++ rest') : xs = ys ∧ rest = rest' := by
  have less (more behind : List α) (within : ∀ x ∈ more, test x = true)
      (ends : ∀ x ∈ (more ++ behind).head?, test x = false) : more = [] := by
    rcases more with _ | ⟨x, more⟩
    · rfl
    · have fails := ends x rfl
      simp [within x List.mem_cons_self] at fails
  rcases List.append_eq_append_iff.mp same with ⟨more, rfl, rfl⟩ | ⟨more, rfl, rfl⟩
  · obtain rfl := less more rest' (fun x later => inside' x (List.mem_append_right _ later)) stops
    exact ⟨by simp, by simp⟩
  · obtain rfl := less more rest (fun x later => inside x (List.mem_append_right _ later)) stops'
    exact ⟨by simp, by simp⟩

theorem spans_unique_right {α : Type} {test : α → Bool} {xs ys rest rest' : List α}
    (inside : ∀ x ∈ xs, test x = true) (inside' : ∀ y ∈ ys, test y = true)
    (stops : ∀ x ∈ rest.getLast?, test x = false) (stops' : ∀ x ∈ rest'.getLast?, test x = false)
    (same : rest ++ xs = rest' ++ ys) : rest = rest' ∧ xs = ys := by
  have turned : xs.reverse ++ rest.reverse = ys.reverse ++ rest'.reverse := by
    simpa using congrArg List.reverse same
  obtain ⟨ends, begins⟩ := spans_unique (by simpa using inside) (by simpa using inside')
    (by simpa using stops) (by simpa using stops') turned
  exact ⟨List.reverse_injective begins, List.reverse_injective ends⟩

theorem mem_intercalate {α : Type} {sep : List α} {pieces : List (List α)} {a : α}
    (listed : a ∈ sep.intercalate pieces) : a ∈ sep ∨ ∃ piece ∈ pieces, a ∈ piece := by
  induction pieces with
  | nil => simp at listed
  | cons first more ih =>
    cases more with
    | nil => exact .inr ⟨first, by simp, by simpa using listed⟩
    | cons next more =>
      rw [List.intercalate_cons_cons, List.mem_append, List.mem_append] at listed
      rcases listed with (here | between) | later
      · exact .inr ⟨first, by simp, here⟩
      · exact .inl between
      · exact (ih later).imp_right fun ⟨piece, member, inside⟩ =>
          ⟨piece, List.mem_cons_of_mem _ member, inside⟩

/-- What holds of all characters of a text is decided by going through the text, and not through all
characters that there are. -/
instance decidableForallChar {p : Char → Prop} [DecidablePred p] (xs : List Char) :
    Decidable (∀ c ∈ xs, p c) :=
  List.decidableBAll p xs

namespace Script

/-- White space, or none. -/
structure Gap where
  text : String
  blank : ∀ c ∈ text.toList, Text.isBlank c = true

def Gap.nothing : Gap := ⟨"", by decide⟩

/-- One blank. -/
def Gap.single : Gap := ⟨" ", by decide⟩

/-- Marks that stand in no name. -/
def marks : List Char :=
  ['\'', '"', ';', ':', ',', '.', '*', '=', '<', '>', '(', ')', '[', ']', '\x7b', '\x7d']

def isNameChar (c : Char) : Bool := !Text.isBlank c && !marks.contains c

/-- A name. It may be made of any characters but blanks and marks. -/
structure Identifier where
  text : String
  nonempty : text ≠ ""
  plain : ∀ c ∈ text.toList, isNameChar c = true

theorem isNameChar_iff (c : Char) : isNameChar c = true ↔ Text.isBlank c = false ∧ c ∉ marks := by
  simp [isNameChar]

namespace Identifier

variable (i : Identifier)

theorem solid : ∀ c ∈ i.text.toList, Text.isBlank c = false :=
  fun c listed => ((isNameChar_iff c).mp (i.plain c listed)).1

theorem notMem {c : Char} (mark : c ∈ marks) : c ∉ i.text.toList :=
  fun listed => ((isNameChar_iff c).mp (i.plain c listed)).2 mark

theorem exists_first : ∃ c rest, i.text.toList = c :: rest ∧ isNameChar c = true := by
  obtain ⟨c, rest, chars⟩ := List.exists_cons_of_ne_nil (l := i.text.toList) (by simp [i.nonempty])
  exact ⟨c, rest, chars, i.plain c (by simp [chars])⟩

end Identifier

/-- Names between commas, with white space around each. -/
def listing (names : List (Gap × Identifier × Gap)) : String :=
  ",".intercalate (names.map fun (left, name, right) => left.text ++ name.text ++ right.text)

theorem mem_listing {names : List (Gap × Identifier × Gap)} {c : Char}
    (listed : c ∈ (listing names).toList) :
    c = ',' ∨ Text.isBlank c = true ∨ isNameChar c = true := by
  rw [listing, String.toList_intercalate, List.map_map] at listed
  rcases mem_intercalate listed with comma | ⟨_, entry, inside⟩
  · exact .inl (List.mem_singleton.mp comma)
  · obtain ⟨⟨left, name, right⟩, -, rfl⟩ := List.mem_map.mp entry
    simp only [Function.comp_apply, String.toList_append, List.mem_append] at inside
    rcases inside with (blank | letter) | blank
    · exact .inr (.inl (left.blank c blank))
    · exact .inr (.inr (name.plain c letter))
    · exact .inr (.inl (right.blank c blank))

end Script

end Workbench
