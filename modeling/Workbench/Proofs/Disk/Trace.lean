import Workbench.Proofs.Disk.Formed

/-! Where a path leads, as a relation. Tracing decides it within the limit on links. A path leads
to entries that are no links, and the absolute path of such an entry leads back to it. -/
namespace Workbench

/-- An entry that is not a link. -/
def Entry.IsPlain (e : Entry) : Prop := ∀ target, e ≠ .link target

theorem Entry.isPlain_directory : Entry.directory.IsPlain := fun _ same => by cases same

namespace Disk

/-- The location that following a link starts from. -/
def baseOf (here : Location) (target : Path) : Location :=
  if target.isAbsolute then [] else here

/-- A step that names an entry and does not stand for the same place or the one above. -/
def IsStep (step : String) : Prop :=
  step ≠ "." ∧ step ≠ ".." ∧ step.utf8ByteSize ≤ nameLimit

theorem IsStep.of_isName (name : String) (named : IsName name) : IsStep name :=
  ⟨named.not_here, named.not_up, named.short⟩

/-- From `here` the steps lead to a location by way of a number of links. -/
inductive Leads (d : Disk) : Location → List String → Nat → Location → Prop
  | arrive (here) : Leads d here [] 0 here
  | stay {here rest links l} : d.get? here = some .directory →
      Leads d here rest links l → Leads d here ("." :: rest) links l
  | climb {here rest links l} : d.get? here = some .directory →
      Leads d here.dropLast rest links l → Leads d here (".." :: rest) links l
  | enter {here step rest e links l} : d.get? here = some .directory → IsStep step →
      d.get? (here ++ [step]) = some e → e.IsPlain →
      Leads d (here ++ [step]) rest links l → Leads d here (step :: rest) links l
  | follow {here step rest target links l} : d.get? here = some .directory → IsStep step →
      d.get? (here ++ [step]) = some (.link target) →
      Leads d (baseOf here target) (target.steps ++ rest) links l →
      Leads d here (step :: rest) (links + 1) l

variable {d : Disk}

/-- Steps lead on only from a directory. -/
theorem Leads.directory_of_cons (here : Location) (step : String) (rest : List String)
    (links : Nat) (l : Location) (leads : d.Leads here (step :: rest) links l) :
    d.get? here = some .directory := by
  cases leads with
  | stay found | climb found | enter found | follow found => exact found

/-- A step that names an entry leads into it, or on from where its link starts. -/
theorem Leads.step_cases (here : Location) (step : String) (rest : List String) (links : Nat)
    (l : Location) (proper : IsStep step) (leads : d.Leads here (step :: rest) links l) :
    (∃ e, d.get? (here ++ [step]) = some e ∧ e.IsPlain ∧
      d.Leads (here ++ [step]) rest links l) ∨
    ∃ target k, d.get? (here ++ [step]) = some (.link target) ∧ links = k + 1 ∧
      d.Leads (baseOf here target) (target.steps ++ rest) k l := by
  cases leads with
  | stay => exact absurd rfl proper.1
  | climb => exact absurd rfl proper.2.1
  | @enter _ _ _ e _ _ _ _ there plain tail => exact .inl ⟨e, there, plain, tail⟩
  | @follow _ _ _ target k _ _ _ there tail => exact .inr ⟨target, k, there, rfl, tail⟩

theorem trace_of_leads (limit : Nat) (here : Location) (steps : List String) (links : Nat)
    (l : Location) (leads : d.Leads here steps links l) (within : links ≤ limit) :
    d.trace true limit here steps = .ok (.taken l) := by
  -- induction on the way; only following a link lowers the limit
  induction leads generalizing limit with
  | arrive => cases limit <;> rfl
  | stay directory _ ih =>
    have rest := ih limit within
    cases limit <;> simpa [trace, traceWith, directory] using rest
  | climb directory _ ih =>
    have rest := ih limit within
    cases limit <;> simpa [trace, traceWith, directory] using rest
  | @enter here step rest e links l directory proper found plain _ ih =>
    have rest := ih limit within
    obtain ⟨here', up, short⟩ := proper
    cases e with
    | link target => exact absurd rfl (plain target)
    | file =>
      cases limit <;>
        simpa [trace, traceWith, directory, here', up, Nat.not_lt.mpr short, found] using rest
    | directory =>
      cases limit <;>
        simpa [trace, traceWith, directory, here', up, Nat.not_lt.mpr short, found] using rest
  | @follow here step rest target links l directory proper found _ ih =>
    obtain ⟨limit, rfl⟩ := Nat.exists_eq_add_of_le' (Nat.one_le_of_lt within)
    have rest := ih limit (by omega)
    obtain ⟨here', up, short⟩ := proper
    simpa [trace, traceWith, directory, here', up, Nat.not_lt.mpr short, found, baseOf] using rest

/-- What is traced leads on if what links are left to does, unless it ends at a link that is not
followed. -/
theorem taken_of_traceWith (follow : Bool) (limit : Nat)
    (onLink : Location → List String → Except Fault Spot) (l : Location)
    (linked : ∀ here steps, onLink here steps = .ok (.taken l) →
      (∃ links, links < limit ∧ d.Leads here steps links l) ∨
        follow = false ∧ ∃ target, d.get? l = some (.link target))
    (here : Location) (steps : List String)
    (taken : d.traceWith follow onLink here steps = .ok (.taken l)) :
    (∃ links, links ≤ limit ∧ d.Leads here steps links l) ∨
      follow = false ∧ ∃ target, d.get? l = some (.link target) := by
  fun_induction d.traceWith follow onLink here steps with
  | case1 =>
    cases taken
    exact .inl ⟨0, Nat.zero_le _, .arrive _⟩
  | case3 here rest directory ih =>
    refine (ih taken).imp_left ?_
    rintro ⟨links, within, leads⟩
    exact ⟨links, within, .stay directory leads⟩
  | case4 here rest directory _ ih =>
    refine (ih taken).imp_left ?_
    rintro ⟨links, within, leads⟩
    exact ⟨links, within, .climb directory leads⟩
  | case8 here step rest _ _ _ _ target found last =>
    cases taken
    exact .inr ⟨by simp_all, target, found⟩
  | case9 here step rest directory here' up short target found _ =>
    refine (linked _ _ taken).imp_left ?_
    rintro ⟨links, within, leads⟩
    exact ⟨links + 1, within, .follow directory ⟨here', up, Nat.not_lt.mp short⟩ found leads⟩
  | case10 here step rest directory here' up short e plain found ih =>
    refine (ih taken).imp_left ?_
    rintro ⟨links, within, leads⟩
    exact ⟨links, within, .enter directory ⟨here', up, Nat.not_lt.mp short⟩ found plain leads⟩
  | _ => simp at taken

/-- A trace ends where the steps lead, or at a link in the last place that is not followed. -/
theorem taken_of_trace (follow : Bool) (limit : Nat) (here : Location) (steps : List String)
    (l : Location) (taken : d.trace follow limit here steps = .ok (.taken l)) :
    (∃ links, links ≤ limit ∧ d.Leads here steps links l) ∨
      follow = false ∧ ∃ target, d.get? l = some (.link target) := by
  -- induction on the limit: what a link leads to is traced within one link less
  induction limit generalizing here steps with
  | zero => exact taken_of_traceWith follow 0 _ _ (fun _ _ refused => by simp at refused) _ _ taken
  | succ limit ih =>
    refine taken_of_traceWith follow (limit + 1) _ _ (fun here steps inner => ?_) _ _ taken
    refine (ih here steps inner).imp_left ?_
    rintro ⟨links, within, leads⟩
    exact ⟨links, Nat.lt_succ_of_le within, leads⟩

theorem leads_of_trace (limit : Nat) (here : Location) (steps : List String) (l : Location)
    (taken : d.trace true limit here steps = .ok (.taken l)) :
    ∃ links, links ≤ limit ∧ d.Leads here steps links l :=
  (taken_of_trace true limit here steps l taken).resolve_right (by simp)

/-- Tracing decides where steps lead within the limit on links. -/
theorem trace_eq_taken_iff (limit : Nat) (here : Location) (steps : List String) (l : Location) :
    d.trace true limit here steps = .ok (.taken l) ↔
      ∃ links, links ≤ limit ∧ d.Leads here steps links l := by
  constructor
  · exact leads_of_trace limit here steps l
  · rintro ⟨links, within, leads⟩
    exact trace_of_leads limit here steps links l leads within

theorem IsTree.directory_dropLast (tree : d.IsTree) (l : Location)
    (there : (d.get? l).isSome) : d.get? l.dropLast = some .directory := by
  rcases List.eq_nil_or_concat' l with rfl | ⟨dir, name, rfl⟩
  · exact get?_nil
  · simpa using tree.parent_directory dir name there

/-- What steps lead to is no link. -/
theorem Leads.plain (tree : d.IsTree) (here : Location) (steps : List String) (links : Nat)
    (l : Location) (leads : d.Leads here steps links l)
    (start : ∃ e, d.get? here = some e ∧ e.IsPlain) : ∃ e, d.get? l = some e ∧ e.IsPlain := by
  induction leads with
  | arrive => exact start
  | stay _ _ ih => exact ih start
  | @climb here rest links l directory _ ih =>
    have above := tree.directory_dropLast here (by simp [directory])
    exact ih ⟨.directory, above, Entry.isPlain_directory⟩
  | enter _ _ found plain _ ih => exact ih ⟨_, found, plain⟩
  | @follow here step rest target links l directory _ _ _ ih =>
    refine ih ⟨.directory, ?_, Entry.isPlain_directory⟩
    rw [baseOf]
    split
    · exact get?_nil
    · exact directory

/-- Names lead down to the entry below `here` that they name. -/
theorem leads_names (tree : d.IsTree) (here names : Location) (e : Entry)
    (found : d.get? (here ++ names) = some e) (plain : e.IsPlain) :
    d.Leads here names 0 (here ++ names) := by
  induction names generalizing here with
  | nil => simpa using Leads.arrive here
  | cons name rest ih =>
    have directory : d.get? here = some .directory :=
      tree.directory_of_below here (name :: rest) (by simp) (by simp [found])
    rw [List.append_cons] at found ⊢
    have leads := ih (here ++ [name]) found
    have named : IsName name :=
      tree.isProper _ (Option.isSome_of_mem found) name (by simp)
    -- the next entry is the last one, or lies on the way to it and is a directory
    have next : ∃ e, d.get? (here ++ [name]) = some e ∧ e.IsPlain := by
      by_cases last : rest = []
      · exact ⟨e, by simpa [last] using found, plain⟩
      · exact ⟨.directory, tree.directory_of_below _ rest last (by rw [found]; rfl),
          Entry.isPlain_directory⟩
    obtain ⟨e', found', plain'⟩ := next
    exact .enter directory (.of_isName name named) found' plain' leads

end Disk

end Workbench
