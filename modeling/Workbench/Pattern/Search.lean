import Workbench.Pattern.Basic
/-!
# Finding the preferred fit

`Pattern.first` walks the fits of a pattern in their order and stops at the first one that a
continuation accepts, without listing the others. `Pattern.first_eq` says that it answers what
a search of the whole list would.
-/
namespace Workbench.Pattern

/-- The first acceptable place among `runs`, found without listing them. -/
def firstRun (wish : Preference) (kind : CharClass) (accept : Cursor → Option α)
    (before : List Char) : List Char → Option α
  | [] => accept ⟨before, []⟩
  | c :: rest =>
    if kind.has c then
      match wish with
      | .more =>
        match firstRun wish kind accept (c :: before) rest with
        | some found => some found
        | none => accept ⟨before, c :: rest⟩
      | .fewer =>
        match accept ⟨before, c :: rest⟩ with
        | some found => some found
        | none => firstRun wish kind accept (c :: before) rest
    else accept ⟨before, c :: rest⟩

/-- What `accept` makes of the most preferred fit that it does not refuse. -/
def first : Pattern → Fit → (Fit → Option α) → Option α
  | .one kind, fit, accept =>
    match fit.cursor.after with
    | c :: rest =>
      if kind.has c then accept { fit with cursor := ⟨c :: fit.cursor.before, rest⟩ } else none
    | [] => none
  | .edge, fit, accept => if fit.cursor.atEdge then accept fit else none
  | .seq p q, fit, accept => p.first fit fun mid => q.first mid accept
  | .maybe part, fit, accept =>
    match part.first fit accept with
    | some found => some found
    | none => accept fit
  | .many wish kind, fit, accept =>
    firstRun wish kind (fun c => accept { fit with cursor := c }) fit.cursor.before
      fit.cursor.after
  | .capture number part, fit, accept =>
    part.first fit fun done =>
      accept { done with captures := (number, fit.cursor, done.cursor) :: done.captures }

theorem firstRun_eq (wish : Preference) (kind : CharClass) (accept : Cursor → Option α)
    (before after : List Char) :
    firstRun wish kind accept before after = (runs wish kind before after).findSome? accept := by
  induction after generalizing before with
  | nil => simp only [firstRun, runs, List.findSome?_singleton]
  | cons c rest ih =>
    unfold firstRun runs
    split
    · cases wish with
      | more =>
        simp only [ih, List.findSome?_append, List.findSome?_singleton]
        cases (runs .more kind (c :: before) rest).findSome? accept <;> rfl
      | fewer =>
        simp only [ih, List.findSome?_cons]
        cases accept ⟨before, c :: rest⟩ <;> rfl
    · exact List.findSome?_singleton.symm

private theorem findSome?_flatMap (f : β → Option γ) (g : α → List β) (xs : List α) :
    (xs.flatMap g).findSome? f = xs.findSome? fun x => (g x).findSome? f := by
  induction xs with
  | nil => rfl
  | cons x rest ih =>
    simp only [List.flatMap_cons, List.findSome?_append, List.findSome?_cons, ih]
    cases (g x).findSome? f <;> rfl

/-- The search answers what going through all fits in their order answers. -/
theorem first_eq (p : Pattern) (fit : Fit) (accept : Fit → Option α) :
    p.first fit accept = (p.outcomes fit).findSome? accept := by
  induction p generalizing fit accept with
  | one kind =>
    unfold first outcomes
    cases fit.cursor.after with
    | nil => rfl
    | cons c rest => dsimp only; split <;> simp
  | edge => unfold first outcomes; split <;> simp
  | seq p q ihp ihq => simp only [first, outcomes, ihp, ihq, findSome?_flatMap]
  | maybe part ih =>
    simp only [first, outcomes, ih, List.findSome?_append, List.findSome?_singleton]
    cases (part.outcomes fit).findSome? accept <;> rfl
  | many wish kind => simp only [first, outcomes, firstRun_eq, List.findSome?_map]; rfl
  | capture number part ih => simp only [first, outcomes, ih, List.findSome?_map]; rfl

end Workbench.Pattern
