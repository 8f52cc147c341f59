import Workbench.Proofs.Pattern.Language

/-!
# What a pattern takes

Where the preferred way of each part of a pattern goes through, these ways together are the
preferred fit of the pattern. So what it takes of a text is told part by part, without going through
its other fits.
-/
namespace Workbench

namespace Pattern

/-- The preferred fit behind `before` takes `xs`, so that `rest` comes next. -/
def Takes (p : Pattern) (before xs rest : List Char) : Prop :=
  ∀ captures, ∃ captures', (p.outcomes ⟨⟨before, xs ++ rest⟩, captures⟩).head? =
    some ⟨⟨xs.reverse ++ before, rest⟩, captures'⟩

namespace Takes

variable {p q part : Pattern} {kind : CharClass} {before xs ys zs rest : List Char}

theorem one {c : Char} (member : kind.has c = true) : (Pattern.one kind).Takes before [c] rest :=
  fun captures => ⟨captures, by simp [outcomes, member]⟩

theorem edge (atEdge : Cursor.atEdge ⟨before, rest⟩ = true) :
    Pattern.edge.Takes before [] rest :=
  fun captures => ⟨captures, by simp [outcomes, atEdge]⟩

theorem seq (first : p.Takes before xs (ys ++ rest))
    (second : q.Takes (xs.reverse ++ before) ys rest) :
    (Pattern.seq p q).Takes before (xs ++ ys) rest := by
  intro captures
  obtain ⟨between, taken⟩ := first captures
  obtain ⟨captures', taken'⟩ := second between
  obtain ⟨others, listed⟩ := List.head?_eq_some_iff.mp taken
  obtain ⟨others', listed'⟩ := List.head?_eq_some_iff.mp taken'
  refine ⟨captures', ?_⟩
  rw [outcomes, List.append_assoc, listed, List.flatMap_cons, listed']
  simp

theorem present (takes : part.Takes before xs rest) :
    (Pattern.maybe part).Takes before xs rest := by
  intro captures
  obtain ⟨captures', taken⟩ := takes captures
  exact ⟨captures', by rw [outcomes, List.head?_append, taken]; rfl⟩

/-- A part is left out where nothing that it reads comes next. -/
theorem absent (unread : ∀ ys groups rest', part.Reads ys groups → rest ≠ ys ++ rest') :
    (Pattern.maybe part).Takes before [] rest := by
  intro captures
  have nothing : part.outcomes ⟨⟨before, rest⟩, captures⟩ = [] := by
    refine List.eq_nil_iff_forall_not_mem.mpr fun fit listed => ?_
    obtain ⟨turns, fits⟩ := (mem_outcomes_iff part _ _).mp listed
    obtain ⟨ys, groups, reads, after, -⟩ := fits.reads
    exact unread ys groups _ reads after
  exact ⟨captures, by simp [outcomes, nothing]⟩

theorem capture (number : Nat) (takes : part.Takes before xs rest) :
    (Pattern.capture number part).Takes before xs rest := by
  intro captures
  obtain ⟨captures', taken⟩ := takes captures
  exact ⟨_, by rw [outcomes, List.head?_map, taken]; rfl⟩

/-- A repetition takes all characters of its class up to one that is not of the class. -/
theorem many (members : ∀ c ∈ xs, kind.has c = true)
    (stops : ∀ c ∈ rest.head?, kind.has c = false) :
    (Pattern.many .more kind).Takes before xs rest := by
  have first : (runs .more kind before (xs ++ rest)).head? = some ⟨xs.reverse ++ before, rest⟩ := by
    induction xs generalizing before with
    | nil =>
      cases rest with
      | nil => rfl
      | cons c rest => simp [runs, stops c rfl]
    | cons c xs ih =>
      have further := @ih (c :: before) fun a later => members a (List.mem_cons_of_mem c later)
      rw [List.cons_append, runs, if_pos (members c List.mem_cons_self)]
      simp [further]
  exact fun captures => ⟨captures, by rw [outcomes, List.head?_map, first]; rfl⟩

theorem oneOrMore (nonempty : xs ≠ []) (members : ∀ c ∈ xs, kind.has c = true)
    (stops : ∀ c ∈ rest.head?, kind.has c = false) :
    (Pattern.oneOrMore .more kind).Takes before xs rest := by
  obtain ⟨c, xs, rfl⟩ := List.exists_cons_of_ne_nil nonempty
  have first : (Pattern.one kind).Takes before [c] (xs ++ rest) :=
    .one (members c List.mem_cons_self)
  exact first.seq (.many (fun a later => members a (List.mem_cons_of_mem c later)) stops)

theorem marks (cs : List Char) (front : p.Takes before xs (cs ++ rest)) :
    ((cs.map fun c => .one (.of [c])).foldl .seq p).Takes before (xs ++ cs) rest := by
  induction cs generalizing p xs with
  | nil => simpa using front
  | cons c cs ih =>
    have mark : (Pattern.one (.of [c])).Takes (xs.reverse ++ before) [c] (cs ++ rest) :=
      .one (by simp [CharClass.has])
    rw [List.append_cons]
    exact ih (.seq front mark)

theorem literal (s : String) (before rest : List Char) :
    (Pattern.literal s).Takes before s.toList rest := by
  unfold Pattern.literal
  cases s.toList with
  | nil =>
    -- no character is of the class that an empty word stands for
    intro captures
    refine ⟨captures, ?_⟩
    cases rest <;> simp [outcomes, runs, CharClass.has]
  | cons c cs =>
    have first : (Pattern.one (.of [c])).Takes before [c] (cs ++ rest) :=
      .one (by simp [CharClass.has])
    exact first.marks cs

end Takes

/-- Patterns that take texts one after another. -/
inductive TakesAll : List Pattern → List Char → List Char → List Char → Prop where
  | last {p : Pattern} {before xs rest : List Char} (takes : p.Takes before xs rest) :
    TakesAll [p] before xs rest
  | next {p : Pattern} {parts : List Pattern} {before xs ys rest : List Char}
    (first : p.Takes before xs (ys ++ rest))
    (later : TakesAll parts (xs.reverse ++ before) ys rest) :
    TakesAll (p :: parts) before (xs ++ ys) rest

theorem takes_all {front : Pattern} {parts : List Pattern} {before xs rest : List Char}
    (takes : TakesAll (front :: parts) before xs rest) :
    (all front parts).Takes before xs rest := by
  -- a sequence is grouped to the left, so each step joins the first two parts
  unfold all
  induction parts generalizing front xs with
  | nil =>
    cases takes with
    | last takes => exact takes
    | next first later => cases later
  | cons part parts ih =>
    rw [List.foldl_cons]
    cases takes with
    | @next _ _ _ xs ys _ first later =>
      apply ih
      cases later with
      | last second => exact .last (.seq first second)
      | @next _ _ _ ys zs _ second later =>
        rw [← List.append_assoc]
        rw [List.append_assoc] at first
        rw [← List.append_assoc, ← List.reverse_append] at later
        exact .next (.seq first second) later

end Pattern

/-- What a rule takes is cut out, if nothing comes in its place. -/
theorem RewriteRule.applyFrom_takes {rule : RewriteRule} (removes : rule.replacement = [])
    {before xs rest : List Char} (takes : rule.pattern.Takes before xs rest) (nonempty : xs ≠ []) :
    rule.applyFrom before (xs ++ rest) = rule.applyFrom (xs.reverse ++ before) rest := by
  obtain ⟨captures, taken⟩ := takes []
  obtain ⟨c, xs, rfl⟩ := List.exists_cons_of_ne_nil nonempty
  rw [List.cons_append] at taken ⊢
  rw [applyFrom, Pattern.fitAt?_eq_outcomes, taken]
  dsimp only
  rw [if_pos (by simp), Fit.fill, removes, List.flatMap_nil, List.nil_append]

end Workbench
