import Workbench.Proofs.Disk.Canonical
import Workbench.Proofs.Disk.Move
import Workbench.Proofs.Path.Descent

/-! Where a trace ends: at an entry, at a link in the last place that is not followed, or at a free
name. What is put at a free name is found there by the path that led to it. -/
namespace Workbench.Disk

variable {d d' : Disk}

/-- A trace goes on from where the first of its steps lead to. -/
theorem trace_append (follow : Bool) (limit : Nat) (here : Location) (front : List String)
    (links : Nat) (mid : Location) (leads : d.Leads here front links mid) (within : links ≤ limit)
    (rest : List String) (more : follow = true ∨ rest ≠ [] ∨ links = 0) :
    d.trace follow limit here (front ++ rest) = d.trace follow (limit - links) mid rest := by
  induction leads generalizing limit with
  | arrive => rfl
  | stay directory _ ih =>
    rw [← ih limit within more]
    cases limit <;> simp [trace, traceWith, directory]
  | climb directory _ ih =>
    rw [← ih limit within more]
    cases limit <;> simp [trace, traceWith, directory]
  | @enter here step _ e _ _ directory proper found plain _ ih =>
    rw [← ih limit within more]
    obtain ⟨here', up, short⟩ := proper
    cases e with
    | link target => exact absurd rfl (plain target)
    | file => cases limit <;> simp [trace, traceWith, directory, here', up, Nat.not_lt.mpr short, found]
    | directory =>
      cases limit <;> simp [trace, traceWith, directory, here', up, Nat.not_lt.mpr short, found]
  | @follow here step steps target links _ directory proper found _ ih =>
    obtain ⟨limit, rfl⟩ := Nat.exists_eq_add_of_le' (Nat.one_le_of_lt within)
    have followed : follow = true ∨ rest ≠ [] := by simpa using more
    have tail := ih limit (by omega) (by tauto)
    obtain ⟨here', up, short⟩ := proper
    rw [Nat.add_sub_add_right, ← tail, List.append_assoc]
    simp only [List.cons_append, trace, traceWith, directory, here', up, Nat.not_lt.mpr short, found,
      baseOf, if_false]
    -- the link is followed, since steps are left or links in the last place are followed
    rw [if_neg]
    rcases followed with rfl | nonempty <;> simp_all

/-- Steps that follow no link are traced alike whether links are followed or not. -/
theorem trace_of_leads_zero (follow : Bool) (limit : Nat) (here : Location) (steps : List String)
    (l : Location) (leads : d.Leads here steps 0 l) :
    d.trace follow limit here steps = .ok (.taken l) := by
  have traced := trace_append follow limit here steps 0 l leads (Nat.zero_le _) [] (.inr (.inr rfl))
  rw [List.append_nil] at traced
  rw [traced]
  cases limit <;> rfl

/-- A name that no entry of a directory has yet. -/
structure IsFree (d : Disk) (dir : Location) (name : String) : Prop where
  directory : d.get? dir = some .directory
  step : IsStep name
  absent : d.get? (dir ++ [name]) = none

/-- Steps lead to wherever the rest of them leads from `mid`, on every disk that holds as much. -/
def Passes (d : Disk) (here : Location) (steps : List String) (links : Nat) (mid : Location)
    (rest : List String) : Prop :=
  ∀ d' k l, d.IsPartOf d' → d'.Leads mid rest k l → d'.Leads here steps (links + k) l

theorem IsPartOf.directory (part : d.IsPartOf d') (l : Location)
    (found : d.get? l = some .directory) : d'.get? l = some .directory := by
  obtain ⟨e, there, rfl⟩ := part l _ found
  exact there

theorem IsPartOf.link (part : d.IsPartOf d') (l : Location) (target : Path)
    (found : d.get? l = some (.link target)) : d'.get? l = some (.link target) := by
  obtain ⟨e, there, rfl⟩ := part l _ found
  exact there

theorem IsPartOf.plain (part : d.IsPartOf d') (l : Location) (e : Entry)
    (found : d.get? l = some e) (plain : e.IsPlain) : ∃ e', d'.get? l = some e' ∧ e'.IsPlain := by
  obtain ⟨e', there, like⟩ := part l e found
  refine ⟨e', there, fun target same => ?_⟩
  subst same
  cases e with
  | link other => exact plain other rfl
  | file => simp [Entry.IsLike] at like
  | directory => cases like

theorem IsPartOf.refl (d : Disk) : d.IsPartOf d := fun _ e found => ⟨e, found, .refl e⟩

theorem IsPartOf.trans {d'' : Disk} (first : d.IsPartOf d') (second : d'.IsPartOf d'') :
    d.IsPartOf d'' := by
  intro l e found
  obtain ⟨e', found', like⟩ := first l e found
  obtain ⟨e'', found'', like'⟩ := second l e' found'
  refine ⟨e'', found'', ?_⟩
  cases e with
  | file =>
    obtain ⟨_, _, rfl⟩ := like
    exact like'
  | directory | link =>
    cases like
    exact like'

/-- A trace that ends at a free name passes to the directory that lacks it. The name is one of the
steps, or a step of some link. -/
theorem free_of_traceWith (follow : Bool) (limit : Nat)
    (onLink : Location → List String → Except Fault Spot) (dir : Location) (name : String)
    (linked : ∀ here steps, onLink here steps = .ok (.free dir name) →
      (∃ links, links < limit ∧ d.Passes here steps links dir [name]) ∧ d.IsFree dir name ∧
        (name ∈ steps ∨ ∃ l target, d.get? l = some (.link target) ∧ name ∈ target.steps))
    (here : Location) (steps : List String)
    (free : d.traceWith follow onLink here steps = .ok (.free dir name)) :
    (∃ links, links ≤ limit ∧ d.Passes here steps links dir [name]) ∧ d.IsFree dir name ∧
      (name ∈ steps ∨ ∃ l target, d.get? l = some (.link target) ∧ name ∈ target.steps) := by
  fun_induction d.traceWith follow onLink here steps with
  | case3 here rest directory ih =>
    obtain ⟨⟨links, within, passes⟩, lacks, listed⟩ := ih free
    refine ⟨⟨links, within, fun d' k l part leads => ?_⟩, lacks, ?_⟩
    · exact .stay (part.directory _ directory) (passes d' k l part leads)
    · exact listed.imp_left (List.mem_cons_of_mem _)
  | case4 here rest directory _ ih =>
    obtain ⟨⟨links, within, passes⟩, lacks, listed⟩ := ih free
    refine ⟨⟨links, within, fun d' k l part leads => ?_⟩, lacks, ?_⟩
    · exact .climb (part.directory _ directory) (passes d' k l part leads)
    · exact listed.imp_left (List.mem_cons_of_mem _)
  | case6 here step directory here' up short absent =>
    cases free
    refine ⟨⟨0, Nat.zero_le _, fun d' k l part leads => ?_⟩,
      ⟨directory, ⟨here', up, Nat.not_lt.mp short⟩, absent⟩, .inl (by simp)⟩
    rwa [Nat.zero_add]
  | case9 here step rest directory here' up short target found _ =>
    obtain ⟨⟨links, within, passes⟩, lacks, listed⟩ := linked _ _ free
    refine ⟨⟨links + 1, within, fun d' k l part leads => ?_⟩, lacks, ?_⟩
    · rw [Nat.add_right_comm]
      exact .follow (part.directory _ directory) ⟨here', up, Nat.not_lt.mp short⟩
        (part.link _ target found) (passes d' k l part leads)
    · rcases listed with member | other
      · rcases List.mem_append.mp member with aim | later
        · exact .inr ⟨_, target, found, aim⟩
        · exact .inl (List.mem_cons_of_mem _ later)
      · exact .inr other
  | case10 here step rest directory here' up short e plain found ih =>
    obtain ⟨⟨links, within, passes⟩, lacks, listed⟩ := ih free
    refine ⟨⟨links, within, fun d' k l part leads => ?_⟩, lacks, ?_⟩
    · obtain ⟨e', there, plain'⟩ := part.plain _ e found plain
      exact .enter (part.directory _ directory) ⟨here', up, Nat.not_lt.mp short⟩ there plain'
        (passes d' k l part leads)
    · exact listed.imp_left (List.mem_cons_of_mem _)
  | _ => simp at free

theorem free_of_trace (follow : Bool) (limit : Nat) (here : Location) (steps : List String)
    (dir : Location) (name : String) (free : d.trace follow limit here steps = .ok (.free dir name)) :
    (∃ links, links ≤ limit ∧ d.Passes here steps links dir [name]) ∧ d.IsFree dir name ∧
      (name ∈ steps ∨ ∃ l target, d.get? l = some (.link target) ∧ name ∈ target.steps) := by
  induction limit generalizing here steps with
  | zero => exact free_of_traceWith follow 0 _ _ _ (fun _ _ refused => by simp at refused) _ _ free
  | succ limit ih =>
    refine free_of_traceWith follow (limit + 1) _ _ _ (fun here steps inner => ?_) _ _ free
    obtain ⟨⟨links, within, passes⟩, lacks⟩ := ih here steps inner
    exact ⟨⟨links, Nat.lt_succ_of_le within, passes⟩, lacks⟩

variable {p : Path} {l : Location}

/-- A step of a path that names an entry is a name that an entry can have. -/
theorem IsStep.isName (name : String) (proper : IsStep name) (clean : p.hasNul = false)
    (listed : name ∈ p.steps) : IsName name := by
  have member : name ∈ p.names := by
    rw [Path.steps] at listed
    split at listed
    · exact (List.mem_append.mp listed).resolve_right fun dot => proper.1 (by simpa using dot)
    · exact listed
  obtain ⟨piece, inside, rfl⟩ := List.mem_map.mp member
  obtain ⟨cut, nonempty⟩ := List.mem_filter.mp inside
  have made := Text.mem_of_mem_splitAt '/' _ piece cut
  have free : Char.ofNat 0 ∉ p.text.toList := by simpa [Path.hasNul] using clean
  constructor
  · simpa using nonempty
  · exact proper.1
  · exact proper.2.1
  · intro slash
    exact (made '/' (by simpa using slash)).2 rfl
  · intro nul
    exact free (made _ (by simpa using nul)).1
  · exact proper.2.2

/-- A path leads to what is there, or ends at a link that is not followed. -/
theorem locate_cases (follow : Bool) (located : d.locate follow p = .ok l) :
    d.locate true p = .ok l ∨ follow = false ∧ ∃ target, d.get? l = some (.link target) := by
  obtain ⟨clean, nonempty, taken⟩ := (locate_eq_ok_iff follow p l).mp located
  rcases taken_of_trace _ _ _ _ _ taken with leads | link
  · exact .inl ((locate_eq_ok_iff true p l).mpr
      ⟨clean, nonempty, (trace_eq_taken_iff _ _ _ _).mpr leads⟩)
  · exact .inr link

/-- What a path leads to on a part of a disk is found on the disk without following a link in the
last place, or a link of that part is. -/
theorem locate_unfollowed_of_part (part : d.IsPartOf d') (work : d'.workDir = d.workDir)
    (located : d.locate true p = .ok l) :
    d'.locate false p = .ok l ∨
      ∃ k target, d'.locate false p = .ok k ∧ d.get? k = some (.link target) := by
  obtain ⟨clean, nonempty, taken⟩ := (locate_eq_ok_iff true p l).mp located
  obtain ⟨links, within, leads⟩ := leads_of_trace _ _ _ _ taken
  obtain ⟨front, last, steps⟩ := (List.eq_nil_or_concat' p.steps).resolve_left
    (steps_ne_nil p nonempty)
  rw [steps] at leads
  obtain ⟨mid, m, k, first, second, rfl⟩ := leads.split _ front [last]
  have start : d'.startOf p = d.startOf p := by rw [startOf, work, startOf]
  have traced : d'.trace false linkLimit (d'.startOf p) p.steps =
      d'.trace false (linkLimit - m) mid [last] := by
    rw [steps, start]
    exact trace_append false linkLimit _ front m mid (first.mono part) (by omega) [last]
      (.inr (.inl (by simp)))
  have found (there : Location)
      (ends : d'.trace false (linkLimit - m) mid [last] = .ok (.taken there)) :
      d'.locate false p = .ok there :=
    (locate_eq_ok_iff false p there).mpr ⟨clean, nonempty, traced.trans ends⟩
  -- only a link in the last place ends the trace early
  rcases Nat.eq_zero_or_pos k with rfl | linked
  · exact .inl (found l (trace_of_leads_zero false _ mid [last] l (second.mono part)))
  · right
    cases second with
    | stay _ tail | climb _ tail | enter _ _ _ _ tail =>
      cases tail
      exact absurd linked (lt_irrefl 0)
    | @follow _ _ _ target _ _ directory proper there tail =>
      obtain ⟨here', up, short⟩ := proper
      refine ⟨mid ++ [last], target, found _ ?_, there⟩
      have directory' := part.directory _ directory
      have there' := part.link _ _ there
      generalize linkLimit - m = limit
      cases limit <;> simp [trace, traceWith, directory', here', up, Nat.not_lt.mpr short, there']

/-- What a path leads to is found without following a link in the last place, or that link is. -/
theorem locate_unfollowed (located : d.locate true p = .ok l) :
    d.locate false p = .ok l ∨
      ∃ k target, d.locate false p = .ok k ∧ d.get? k = some (.link target) :=
  locate_unfollowed_of_part (.refl d) rfl located

/-- A path leads to what is there by its names, a slash at its end being a step to the same place. -/
theorem leads_of_locate (located : d.locate true p = .ok l) :
    p.hasNul = false ∧ p.text ≠ "" ∧
      ∃ links, links ≤ linkLimit ∧ d.Leads (d.startOf p) p.names links l := by
  obtain ⟨clean, nonempty, taken⟩ := (locate_eq_ok_iff true p l).mp located
  obtain ⟨links, within, leads⟩ := leads_of_trace _ _ _ _ taken
  refine ⟨clean, nonempty, links, within, ?_⟩
  rw [Path.steps] at leads
  split at leads
  · obtain ⟨mid, m, k, first, second, rfl⟩ := leads.split _ p.names ["."]
    have stays : d.Leads mid ["."] 0 mid := .stay second.directory_of_cons (.arrive mid)
    obtain ⟨rfl, rfl⟩ := second.unique _ _ _ _ _ _ stays
    exact first
  · exact leads

/-- A path leads to a directory exactly if its names do. -/
theorem locate_directory_iff (directory : d.get? l = some .directory) :
    d.locate true p = .ok l ↔ p.hasNul = false ∧ p.text ≠ "" ∧
      ∃ links, links ≤ linkLimit ∧ d.Leads (d.startOf p) p.names links l := by
  refine ⟨leads_of_locate, ?_⟩
  rintro ⟨clean, nonempty, links, within, leads⟩
  rw [locate_eq_ok_iff, trace_eq_taken_iff, Path.steps]
  refine ⟨clean, nonempty, links, within, ?_⟩
  split
  · exact leads.append _ l _ ["."] links 0 l (.stay directory (.arrive l))
  · exact leads

/-- A free name is put to use by the path that led to it. -/
theorem spot_free (follow : Bool) (dir : Location) (name : String)
    (free : d.spot follow p = .ok (.free dir name)) :
    d.IsFree dir name ∧
      (p.hasNul = false ∧ name ∈ p.steps ∨
        ∃ l target, d.get? l = some (.link target) ∧ name ∈ target.steps) ∧
      ∀ e : Entry, e.IsPlain → (d.put (dir ++ [name]) e).locate true p = .ok (dir ++ [name]) := by
  unfold spot at free
  by_cases nul : p.hasNul = true
  · simp [nul] at free
  · by_cases empty : p.text = ""
    · simp [nul, empty] at free
    · rw [if_neg nul, if_neg empty] at free
      have clean : p.hasNul = false := by simpa using nul
      obtain ⟨⟨links, within, passes⟩, lacks, listed⟩ := free_of_trace _ _ _ _ _ _ free
      refine ⟨lacks, listed.imp_left fun member => ⟨clean, member⟩, fun e plain => ?_⟩
      have below : dir ++ [name] ≠ [] := by simp
      have part : d.IsPartOf (d.put (dir ++ [name]) e) := by
        intro k old found
        refine ⟨old, ?_, .refl old⟩
        have apart : k ≠ dir ++ [name] := by
          rintro rfl
          simp [lacks.absent] at found
        rw [get?_put _ _ below, if_neg apart, found]
      have arrives : (d.put (dir ++ [name]) e).Leads dir [name] 0 (dir ++ [name]) :=
        .enter (part.directory _ lacks.directory) lacks.step (by rw [get?_put _ _ below, if_pos rfl])
          plain (.arrive _)
      exact (locate_eq_ok_iff true p _).mpr ⟨clean, empty,
        trace_of_leads _ _ _ links _ (passes _ 0 _ part arrives) within⟩

/-- The directory that a path names an entry of is where its names before the last lead to. -/
theorem parentSpot_of_leads (clean : p.hasNul = false) (nonempty : p.text ≠ "") (links : Nat)
    (dir : Location) (within : links ≤ linkLimit)
    (leads : d.Leads (d.startOf p) p.names.dropLast links dir)
    (directory : d.get? dir = some .directory) :
    d.parentSpot p = match p.names.getLast? with
      | none => .ok (dir, none)
      | some name =>
        if name = "." || name = ".." then .ok (dir, none)
        else if nameLimit < name.utf8ByteSize then .error .nameTooLong
        else .ok (dir, some name) := by
  have traced := trace_of_leads linkLimit _ _ links dir leads within
  simp only [parentSpot, clean, nonempty, traced, directory, bind, Except.bind]
  rfl

theorem leads_of_parentSpot (dir : Location) (last : Option String)
    (spotted : d.parentSpot p = .ok (dir, last)) :
    p.hasNul = false ∧ p.text ≠ "" ∧ d.get? dir = some .directory ∧
      ∃ links, links ≤ linkLimit ∧ d.Leads (d.startOf p) p.names.dropLast links dir := by
  unfold parentSpot at spotted
  by_cases nul : p.hasNul = true
  · simp [nul] at spotted
  · by_cases empty : p.text = ""
    · simp [nul, empty] at spotted
    · rw [if_neg nul, if_neg empty] at spotted
      cases traced : d.trace true linkLimit (d.startOf p) p.names.dropLast with
      | error fault => simp [traced, bind, Except.bind] at spotted
      | ok spot =>
        cases spot with
        | free => simp [traced, bind, Except.bind] at spotted
        | taken above =>
          have leads := leads_of_trace _ _ _ _ traced
          suffices same : above = dir ∧ d.get? above = some .directory by
            obtain ⟨rfl, directory⟩ := same
            exact ⟨by simpa using nul, empty, directory, leads⟩
          simp only [traced, bind, Except.bind] at spotted
          repeat' split at spotted
          all_goals simp_all

/-- What a path names is an entry of the directory that its other names lead to. -/
theorem parentSpot_eq_ok_iff (dir : Location) (name : String) :
    d.parentSpot p = .ok (dir, some name) ↔
      p.hasNul = false ∧ p.text ≠ "" ∧ d.get? dir = some .directory ∧ IsStep name ∧
        ∃ front, p.names = front ++ [name] ∧
          ∃ links, links ≤ linkLimit ∧ d.Leads (d.startOf p) front links dir := by
  constructor
  · intro spotted
    obtain ⟨clean, nonempty, directory, links, within, leads⟩ := leads_of_parentSpot dir _ spotted
    rw [parentSpot_of_leads clean nonempty links dir within leads directory] at spotted
    cases last : p.names.getLast? with
    | none => simp [last] at spotted
    | some step =>
      simp only [last] at spotted
      split at spotted
      · simp at spotted
      next dotless =>
        split at spotted
        · simp at spotted
        next short =>
          simp only [Bool.or_eq_true, decide_eq_true_eq, not_or] at dotless
          cases spotted
          refine ⟨clean, nonempty, directory, ⟨dotless.1, dotless.2, Nat.not_lt.mp short⟩, _, ?_,
            links, within, leads⟩
          exact (List.dropLast_append_getLast? _ last).symm
  · rintro ⟨clean, nonempty, directory, ⟨here, up, short⟩, front, names, links, within, leads⟩
    have leads' : d.Leads (d.startOf p) p.names.dropLast links dir := by simpa [names] using leads
    rw [parentSpot_of_leads clean nonempty links dir within leads' directory]
    simp [names, here, up, Nat.not_lt.mpr short]

/-- Nothing is made where a path leads to a directory. -/
theorem makeDir_of_located (located : d.locate true p = .ok l)
    (directory : d.get? l = some .directory) : d.makeDir p = .error .exists := by
  obtain ⟨clean, nonempty, links, within, leads⟩ := (locate_directory_iff directory).mp located
  rcases List.eq_nil_or_concat' p.names with empty | ⟨front, name, names⟩
  · rw [empty] at leads
    cases leads
    have spotted := parentSpot_of_leads clean nonempty 0 _ (Nat.zero_le _)
      (by simpa [empty] using Leads.arrive (d := d) _) directory
    simp [makeDir, spotted, empty, bind, Except.bind]
  · rw [names] at leads
    obtain ⟨dir, m, k, first, second, rfl⟩ := leads.split _ front [name]
    have spotted := parentSpot_of_leads clean nonempty m dir (Nat.le_of_add_right_le within)
      (by simpa [names] using first) second.directory_of_cons
    rw [makeDir, spotted, names, List.getLast?_concat]
    dsimp only
    split
    · rfl
    next dotless =>
      simp only [Bool.or_eq_true, decide_eq_true_eq, not_or] at dotless
      -- the last step goes into an entry or follows a link, and neither is a free name
      cases second with
      | stay => exact absurd rfl dotless.1
      | climb => exact absurd rfl dotless.2
      | enter _ proper found => simp [Nat.not_lt.mpr proper.2.2, found, bind, Except.bind]
      | follow _ proper found => simp [Nat.not_lt.mpr proper.2.2, found, bind, Except.bind]

/-- An entry that a path names is found by the path. A link in the last place must not be followed,
and only a directory may have a slash at its end. -/
theorem locate_of_parentSpot (follow : Bool) (dir : Location) (name : String) (e : Entry)
    (spotted : d.parentSpot p = .ok (dir, some name)) (found : d.get? (dir ++ [name]) = some e)
    (ends : e = .directory ∨ p.endsInSlash = false) (last : e.IsPlain ∨ follow = false) :
    d.locate follow p = .ok (dir ++ [name]) := by
  obtain ⟨clean, nonempty, directory, ⟨here, up, short⟩, front, names, links, within, leads⟩ :=
    (parentSpot_eq_ok_iff dir name).mp spotted
  obtain ⟨rest, steps, closed⟩ : ∃ rest, p.steps = front ++ name :: rest ∧
      (rest = [] ∨ rest = ["."] ∧ e = .directory) := by
    rw [Path.steps, names]
    split
    next slash =>
      refine ⟨["."], by simp, .inr ⟨rfl, ends.resolve_right ?_⟩⟩
      simp [slash]
    next => exact ⟨[], rfl, .inl rfl⟩
  refine (locate_eq_ok_iff follow p _).mpr ⟨clean, nonempty, ?_⟩
  rw [steps, trace_append follow linkLimit _ front links dir leads within _ (.inr (.inl (by simp)))]
  generalize linkLimit - links = limit
  cases e with
  | directory =>
    rcases closed with rfl | ⟨rfl, -⟩ <;>
      cases limit <;> simp [trace, traceWith, directory, here, up, Nat.not_lt.mpr short, found]
  | file =>
    have empty : rest = [] := closed.resolve_right (by simp)
    subst empty
    cases limit <;> simp [trace, traceWith, directory, here, up, Nat.not_lt.mpr short, found]
  | link target =>
    have empty : rest = [] := closed.resolve_right (by simp)
    have unfollowed : follow = false := last.resolve_left fun plain => plain target rfl
    subst empty unfollowed
    cases limit <;> simp [trace, traceWith, directory, here, up, Nat.not_lt.mpr short, found]

/-- Steps without links on the way, and without a way up, lead down by their names. -/
theorem Leads.direct (here : Location) (steps : List String) (links : Nat) (l : Location)
    (leads : d.Leads here steps links l) (noUp : ".." ∉ steps)
    (linkless : ∀ front, front <+: steps.filter (· ≠ ".") → front ≠ [] → ∀ target,
      d.get? (here ++ front) ≠ some (.link target)) :
    links = 0 ∧ l = here ++ steps.filter (· ≠ ".") := by
  induction leads with
  | arrive => simp
  | stay _ _ ih => simpa using ih (by simp_all) (by simpa using linkless)
  | climb => simp at noUp
  | @enter here step rest _ _ _ _ proper _ _ _ ih =>
    have kept : (step :: rest).filter (· ≠ ".") = step :: rest.filter (· ≠ ".") := by
      simp [proper.1]
    rw [kept] at linkless ⊢
    have tail := ih (fun up => noUp (List.mem_cons_of_mem _ up)) fun front begins _ target => by
      have deeper := linkless (step :: front) (by simpa using begins) (by simp) target
      simpa using deeper
    simpa using tail
  | @follow here step rest target _ _ _ proper found _ _ =>
    have kept : (step :: rest).filter (· ≠ ".") = step :: rest.filter (· ≠ ".") := by
      simp [proper.1]
    rw [kept] at linkless
    exact absurd found (linkless [step] (by simp) (by simp) target)

/-- Dots at the end are steps to the same place. -/
theorem Leads.of_dots_behind (here : Location) (front dots : List String)
    (still : ∀ step ∈ dots, step = ".") (links : Nat) (l : Location)
    (leads : d.Leads here (front ++ dots) links l) : d.Leads here front links l := by
  obtain ⟨mid, m, k, first, second, rfl⟩ := leads.split _ front dots
  have stays : dots.filter (· ≠ ".") = [] := by simpa [List.filter_eq_nil_iff] using still
  have same : k = 0 ∧ l = mid ++ dots.filter (· ≠ ".") := by
    refine second.direct _ _ _ _ (fun up => absurd (still _ up) (by decide))
      fun front begins nonempty => ?_
    rw [stays] at begins
    exact absurd (List.prefix_nil.mp begins) nonempty
  obtain ⟨rfl, rfl⟩ := same
  rwa [stays, List.append_nil]

/-- What lies below a directory is found by the names that lead to it from there. -/
theorem locate_under (tree : d.IsTree) (located : d.locate true p = .ok l) (names : List String)
    (e : Entry) (found : d.get? (l ++ names) = some e) (plain : e.IsPlain) :
    d.locate true (p.under names) = .ok (l ++ names) := by
  by_cases empty : names = []
  · subst empty
    simpa using located
  · have directory : d.get? l = some .directory :=
      tree.directory_of_below l names empty (by simp [found])
    obtain ⟨clean, nonempty, links, within, leads⟩ := (locate_directory_iff directory).mp located
    have proper : Location.IsProper names := fun name member =>
      tree.isProper (l ++ names) (by simp [found]) name (List.mem_append_right _ member)
    have descends := Path.descends nonempty names proper
    have steps : (p.under names).steps = p.names ++ names := by
      rw [Path.steps, descends.endsInSlash empty, descends.names]
      rfl
    have start : d.startOf (p.under names) = d.startOf p := by
      simp only [startOf, descends.isAbsolute]
    refine (locate_eq_ok_iff true _ _).mpr ⟨by rw [descends.hasNul, clean], descends.nonempty, ?_⟩
    rw [steps, start]
    exact trace_of_leads _ _ _ _ _ (leads.append _ l _ names links 0 _
      (leads_names tree l names e found plain)) within

/-- Below a directory without links a path leads down by its names. -/
theorem eq_of_locate_under (located : d.locate true p = .ok l) (names : Location)
    (proper : names.IsProper)
    (linkless : ∀ rest, rest ≠ [] → ∀ target, d.get? (l ++ rest) ≠ some (.link target))
    (k : Location) (found : d.locate true (p.under names) = .ok k) : k = l ++ names := by
  obtain ⟨-, nonempty, links, -, leads⟩ := leads_of_locate located
  have descends := Path.descends nonempty names proper
  obtain ⟨-, -, links', -, leads'⟩ := leads_of_locate found
  rw [startOf, descends.isAbsolute, ← startOf, descends.names] at leads'
  obtain ⟨mid, m, n, first, second, -⟩ := leads'.split _ p.names names
  obtain ⟨-, rfl⟩ := first.unique _ _ _ _ _ _ leads
  obtain ⟨noUp, kept⟩ := proper.filter_ne_here
  have down := (second.direct _ _ _ _ noUp fun front _ lower => linkless front lower).2
  rwa [kept] at down

end Workbench.Disk
