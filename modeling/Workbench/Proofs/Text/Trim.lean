import Mathlib.Data.List.Basic
import Mathlib.Data.List.TakeWhile
import Workbench.Text.Basic

/-! What is dropped at the end of a list, and what is left of it. Trimming leaves what is not blank,
and a text that it leaves as it is neither begins nor ends with a blank. -/
namespace Workbench.Text

variable {α : Type}

theorem exists_dropLastWhile (test : α → Bool) (xs : List α) :
    ∃ back, xs = dropLastWhile test xs ++ back ∧ ∀ x ∈ back, test x = true := by
  refine ⟨(xs.reverse.takeWhile test).reverse, ?_, ?_⟩
  · have cut := List.takeWhile_append_dropWhile (p := test) (l := xs.reverse)
    have turned := congrArg List.reverse cut
    rw [List.reverse_append, List.reverse_reverse] at turned
    exact turned.symm
  · intro x member
    exact List.mem_takeWhile_imp (List.mem_reverse.mp member)

/-- What is left ends in something that was not to be dropped. -/
theorem last_of_dropLastWhile (test : α → Bool) (xs front : List α) (last : α)
    (left : dropLastWhile test xs = front ++ [last]) : test last = false := by
  have turned : xs.reverse.dropWhile test = last :: front.reverse := by
    have reversed := congrArg List.reverse left
    simpa [dropLastWhile] using reversed
  have head := List.head?_dropWhile_not test xs.reverse
  rw [turned] at head
  simpa using head

theorem isPrefix_dropLastWhile (test : α → Bool) (xs : List α) : dropLastWhile test xs <+: xs := by
  obtain ⟨back, whole, -⟩ := exists_dropLastWhile test xs
  exact ⟨back, whole.symm⟩

theorem dropLastWhile_concat {test : α → Bool} (front : List α) {last : α}
    (solid : test last = false) : dropLastWhile test (front ++ [last]) = front ++ [last] := by
  simp [dropLastWhile, solid]

theorem dropLastWhile_congr {test test' : α → Bool} {xs : List α}
    (same : ∀ x ∈ xs, test x = test' x) : dropLastWhile test xs = dropLastWhile test' xs := by
  have front (ys : List α) (same : ∀ y ∈ ys, test y = test' y) :
      ys.dropWhile test = ys.dropWhile test' := by
    induction ys with
    | nil => rfl
    | cons y rest ih =>
      rw [List.dropWhile_cons, List.dropWhile_cons, same y List.mem_cons_self,
        ih fun z member => same z (List.mem_cons_of_mem _ member)]
  rw [dropLastWhile, dropLastWhile,
    front xs.reverse fun x member => same x (List.mem_reverse.mp member)]

/-- Trimming leaves characters that are not blank. -/
theorem mem_trim (s : String) (c : Char) (solid : isBlank c = false) (member : c ∈ s.toList) :
    c ∈ (trim s).toList := by
  have drop (cs : List Char) (inside : c ∈ cs) : c ∈ cs.dropWhile isBlank := by
    rw [← List.takeWhile_append_dropWhile (p := isBlank) (l := cs), List.mem_append] at inside
    refine inside.resolve_left fun blank => ?_
    have isBlank := List.mem_takeWhile_imp blank
    simp [solid] at isBlank
  rw [trim, String.toList_ofList, dropLastWhile, List.mem_reverse]
  exact drop _ (List.mem_reverse.mpr (drop _ member))

/-- Nothing is left of a text exactly if it is blank. -/
theorem trim_eq_empty_iff (s : String) : trim s = "" ↔ ∀ c ∈ s.toList, isBlank c = true := by
  constructor
  · intro nothing c member
    by_contra solid
    have kept := mem_trim s c (by simpa using solid) member
    simp [nothing] at kept
  · intro blank
    have left : s.toList.dropWhile isBlank = [] := List.dropWhile_eq_nil_iff.mpr blank
    rw [trim, left]
    rfl

section

variable {s : String} (trimmed : trim s = s)
include trimmed

theorem dropLastWhile_of_trim : dropLastWhile isBlank (s.toList.dropWhile isBlank) = s.toList := by
  rw [← String.toList_ofList (l := dropLastWhile _ _)]
  exact congrArg String.toList trimmed

theorem exists_first_of_trim (nonempty : s ≠ "") :
    ∃ c rest, s.toList = c :: rest ∧ isBlank c = false := by
  obtain ⟨c, rest, chars⟩ := List.exists_cons_of_ne_nil (l := s.toList) (by simpa using nonempty)
  have head := List.head?_dropWhile_not isBlank s.toList
  obtain ⟨more, begins⟩ := isPrefix_dropLastWhile isBlank (s.toList.dropWhile isBlank)
  rw [dropLastWhile_of_trim trimmed, chars, List.cons_append] at begins
  rw [chars, ← begins] at head
  exact ⟨c, rest, chars, by simpa using head⟩

theorem exists_last_of_trim (nonempty : s ≠ "") :
    ∃ front c, s.toList = front ++ [c] ∧ isBlank c = false := by
  rcases List.eq_nil_or_concat' s.toList with empty | ⟨front, c, chars⟩
  · exact absurd (by simpa using empty) nonempty
  · have left := (dropLastWhile_of_trim trimmed).trans chars
    exact ⟨front, c, chars, last_of_dropLastWhile isBlank _ front c left⟩

end

end Workbench.Text
