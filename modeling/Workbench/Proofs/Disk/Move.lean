import Workbench.Disk.Change
import Workbench.Proofs.Disk.Entries
import Workbench.Proofs.Disk.Trace

/-! What becomes of a path when an entry gets another name in its directory. Steps lead where they
led unless they lead through the entry; steps through a file end there, and a link is not met
again on the way that it starts. -/
namespace Workbench

/-- Whether two entries are of a kind: equal, or both files. -/
def Entry.IsLike : Entry → Entry → Prop
  | .file _ _, e => ∃ content runnable, e = .file content runnable
  | e, e' => e' = e

theorem Entry.IsLike.refl (e : Entry) : e.IsLike e := by
  cases e with
  | file content runnable => exact ⟨content, runnable, rfl⟩
  | _ => rfl

namespace Disk

/-- Whatever is on one disk is on the other, if perhaps with other content. -/
def IsPartOf (d d' : Disk) : Prop :=
  ∀ l e, d.get? l = some e → ∃ e', d'.get? l = some e' ∧ e.IsLike e'

variable {d d' : Disk}

/-- A file may get other content. -/
theorem isPartOf_put_file (l : Location) (content content' : ByteArray) (runnable runnable' : Bool)
    (file : d.get? l = some (.file content runnable)) :
    d.IsPartOf (d.put l (.file content' runnable')) := by
  have below : l ≠ [] := by
    rintro rfl
    simp [get?_nil] at file
  intro k e found
  rw [get?_put l _ below]
  split
  next same =>
    rw [same, file] at found
    cases found
    exact ⟨_, rfl, content', runnable', rfl⟩
  next => exact ⟨e, found, .refl e⟩

theorem Leads.mono (part : d.IsPartOf d') (here : Location) (steps : List String) (links : Nat)
    (l : Location) (leads : d.Leads here steps links l) : d'.Leads here steps links l := by
  have directory (l : Location) (found : d.get? l = some .directory) :
      d'.get? l = some .directory := by
    obtain ⟨e, there, rfl⟩ := part l _ found
    exact there
  -- directories and links are the same on both disks, and a file is a file on both
  induction leads with
  | arrive here => exact .arrive here
  | stay found _ ih => exact .stay (directory _ found) ih
  | climb found _ ih => exact .climb (directory _ found) ih
  | @enter here step rest e links l found proper there plain _ ih =>
    obtain ⟨e', there', like⟩ := part _ _ there
    refine .enter (directory _ found) proper there' (fun target same => ?_) ih
    subst same
    cases e with
    | link other => exact plain other rfl
    | file => simp [Entry.IsLike] at like
    | directory => cases like
  | follow found proper there _ ih =>
    obtain ⟨e', there', rfl⟩ := part _ _ there
    exact .follow (directory _ found) proper there' ih

/-- Steps lead to one place only, through the same links. -/
theorem Leads.unique (here : Location) (steps : List String) (links links' : Nat)
    (l l' : Location) (first : d.Leads here steps links l) (second : d.Leads here steps links' l') :
    links = links' ∧ l = l' := by
  -- induction on the first way: each step leaves only one way to go on
  induction first generalizing links' with
  | arrive => cases second; exact ⟨rfl, rfl⟩
  | @stay here rest links l _ _ ih =>
    generalize whole : "." :: rest = steps at second
    cases second with
    | arrive => cases whole
    | stay _ tail =>
      cases whole
      exact ih _ tail
    | climb => simp at whole
    | enter _ proper | follow _ proper =>
      cases whole
      exact absurd rfl proper.1
  | @climb here rest links l _ _ ih =>
    generalize whole : ".." :: rest = steps at second
    cases second with
    | arrive => cases whole
    | climb _ tail =>
      cases whole
      exact ih _ tail
    | stay => simp at whole
    | enter _ proper | follow _ proper =>
      cases whole
      exact absurd rfl proper.2.1
  | enter _ proper there plain _ ih =>
    rcases second.step_cases _ _ _ _ _ proper with ⟨_, _, _, rest⟩ | ⟨target, _, there', -⟩
    · exact ih _ rest
    · rw [there] at there'
      exact absurd (Option.some.inj there') (plain target)
  | @follow _ _ _ target _ _ _ proper there _ ih =>
    rcases second.step_cases _ _ _ _ _ proper with ⟨_, there', plain, -⟩ | ⟨_, _, there', rfl, rest⟩
    · rw [there] at there'
      exact absurd (Option.some.inj there').symm (plain target)
    · rw [there] at there'
      cases there'
      obtain ⟨same, place⟩ := ih _ rest
      exact ⟨by rw [same], place⟩

/-- Steps lead to where the last of them lead from where the first of them lead to. -/
theorem Leads.split (here : Location) (front rest : List String) (links : Nat) (l : Location)
    (leads : d.Leads here (front ++ rest) links l) :
    ∃ mid m k, d.Leads here front m mid ∧ d.Leads mid rest k l ∧ links = m + k := by
  generalize whole : front ++ rest = steps at leads
  -- induction on the way: the front is at its end, or begins with the step taken
  induction leads generalizing front with
  | arrive here =>
    obtain ⟨rfl, rfl⟩ := List.append_eq_nil_iff.mp whole
    exact ⟨here, 0, 0, .arrive here, .arrive here, rfl⟩
  | @stay here steps links l found tail ih =>
    cases front with
    | nil =>
      cases whole
      exact ⟨here, 0, links, .arrive here, .stay found tail, (Nat.zero_add _).symm⟩
    | cons step front =>
      cases whole
      obtain ⟨mid, m, k, first, second, sum⟩ := ih front rfl
      exact ⟨mid, m, k, .stay found first, second, sum⟩
  | @climb here steps links l found tail ih =>
    cases front with
    | nil =>
      cases whole
      exact ⟨here, 0, links, .arrive here, .climb found tail, (Nat.zero_add _).symm⟩
    | cons step front =>
      cases whole
      obtain ⟨mid, m, k, first, second, sum⟩ := ih front rfl
      exact ⟨mid, m, k, .climb found first, second, sum⟩
  | @enter here step steps e links l found proper there plain tail ih =>
    cases front with
    | nil =>
      cases whole
      exact ⟨here, 0, links, .arrive here, .enter found proper there plain tail,
        (Nat.zero_add _).symm⟩
    | cons step front =>
      cases whole
      obtain ⟨mid, m, k, first, second, sum⟩ := ih front rfl
      exact ⟨mid, m, k, .enter found proper there plain first, second, sum⟩
  | @follow here step steps target links l found proper there tail ih =>
    cases front with
    | nil =>
      cases whole
      exact ⟨here, 0, links + 1, .arrive here, .follow found proper there tail,
        (Nat.zero_add _).symm⟩
    | cons step front =>
      cases whole
      obtain ⟨mid, m, k, first, second, sum⟩ := ih (target.steps ++ front) (List.append_assoc _ _ _)
      exact ⟨mid, m + 1, k, .follow found proper there first, second, by omega⟩

theorem Leads.append (here mid : Location) (front rest : List String) (m k : Nat) (l : Location)
    (first : d.Leads here front m mid) (second : d.Leads mid rest k l) :
    d.Leads here (front ++ rest) (m + k) l := by
  induction first with
  | arrive => simpa using second
  | stay found _ ih => exact .stay found (ih second)
  | climb found _ ih => exact .climb found (ih second)
  | enter found proper there plain _ ih => exact .enter found proper there plain (ih second)
  | follow found proper there _ ih =>
    rw [Nat.add_right_comm]
    exact .follow found proper there (by simpa using ih second)

/-- Steps lead to a directory only from a directory. -/
theorem Leads.directory_of_end (here : Location) (steps : List String) (links : Nat) (l : Location)
    (leads : d.Leads here steps links l) (ends : d.get? l = some .directory) :
    d.get? here = some .directory := by
  cases leads with
  | arrive => exact ends
  | stay found | climb found | enter found | follow found => exact found

/-- Steps do without an entry that is no directory, or they lead on from it. -/
theorem Leads.avoids_or_passes (dir : Location) (name : String)
    (solid : d.get? (dir ++ [name]) ≠ some .directory) (here : Location) (steps : List String)
    (links : Nat) (l : Location) (leads : d.Leads here steps links l) :
    (d.erase (dir ++ [name])).Leads here steps links l ∨
      ∃ rest k, k ≤ links ∧ IsStep name ∧ d.Leads dir (name :: rest) k l := by
  have kept (l : Location) (apart : l ≠ dir ++ [name]) :
      (d.erase (dir ++ [name])).get? l = d.get? l := by
    rw [get?_erase _ (by simp), if_neg apart]
  have directory (l : Location) (found : d.get? l = some .directory) :
      (d.erase (dir ++ [name])).get? l = some .directory := by
    rw [kept l fun same => solid (same ▸ found), found]
  -- induction on the way: the first step to the entry gives the way on from there
  induction leads with
  | arrive here => exact .inl (.arrive here)
  | stay found _ ih =>
    rcases ih with avoids | passes
    · exact .inl (.stay (directory _ found) avoids)
    · exact .inr passes
  | climb found _ ih =>
    rcases ih with avoids | passes
    · exact .inl (.climb (directory _ found) avoids)
    · exact .inr passes
  | @enter here step rest e links l found proper there plain tail ih =>
    by_cases same : here ++ [step] = dir ++ [name]
    · obtain ⟨rfl, named⟩ := List.append_inj' same rfl
      cases named
      exact .inr ⟨rest, links, le_rfl, proper, .enter found proper there plain tail⟩
    · rcases ih with avoids | passes
      · exact .inl (.enter (directory _ found) proper (by rw [kept _ same, there]) plain avoids)
      · exact .inr passes
  | @follow here step rest target links l found proper there tail ih =>
    by_cases same : here ++ [step] = dir ++ [name]
    · obtain ⟨rfl, named⟩ := List.append_inj' same rfl
      cases named
      exact .inr ⟨rest, links + 1, le_rfl, proper, .follow found proper there tail⟩
    · rcases ih with avoids | ⟨rest, k, within, passes⟩
      · exact .inl (.follow (directory _ found) proper (by rw [kept _ same, there]) avoids)
      · exact .inr ⟨rest, k, Nat.le_succ_of_le within, passes⟩

/-- A link is not met again on the way from its target to where that leads. -/
theorem Leads.avoids_link (dir : Location) (name : String) (target : Path) (links : Nat)
    (l : Location) (there : d.get? (dir ++ [name]) = some (.link target))
    (leads : d.Leads (baseOf dir target) target.steps links l) :
    (d.erase (dir ++ [name])).Leads (baseOf dir target) target.steps links l := by
  rcases leads.avoids_or_passes dir name (by simp [there]) with
    avoids | ⟨rest, k, within, proper, passes⟩
  · exact avoids
  · exfalso
    rcases passes.step_cases _ _ _ _ _ proper with
      ⟨_, there', plain, -⟩ | ⟨_, k', there', rfl, tail⟩
    · rw [there] at there'
      exact plain target (Option.some.inj there').symm
    · -- the way from the link would be shorter than itself
      rw [there] at there'
      cases there'
      obtain ⟨mid, m, k, first, -, sum⟩ := tail.split _ target.steps rest
      have same := (first.unique _ _ _ _ _ _ leads).1
      omega

/-- Steps that lead through a file end there. -/
theorem Leads.avoids_or_ends_at_file (dir : Location) (name : String) (content : ByteArray)
    (runnable : Bool) (there : d.get? (dir ++ [name]) = some (.file content runnable))
    (here : Location) (steps : List String) (links : Nat) (l : Location)
    (leads : d.Leads here steps links l) :
    (d.erase (dir ++ [name])).Leads here steps links l ∨ l = dir ++ [name] := by
  rcases leads.avoids_or_passes dir name (by simp [there]) with
    avoids | ⟨rest, k, -, proper, passes⟩
  · exact .inl avoids
  · right
    rcases passes.step_cases _ _ _ _ _ proper with ⟨_, _, _, tail⟩ | ⟨_, _, there', -⟩
    · cases tail with
      | arrive => rfl
      | stay found | climb found | enter found | follow found => simp [there] at found
    · simp [there] at there'

/-- An entry that leads to a file is on no way to a directory. -/
theorem Leads.avoids_file (dir : Location) (name : String)
    (solid : d.get? (dir ++ [name]) ≠ some .directory) (k : Nat) (l : Location)
    (lower : d.Leads dir [name] k l) (content : ByteArray) (runnable : Bool)
    (file : d.get? l = some (.file content runnable)) (start : Location) (front : List String)
    (m : Nat) (top : Location) (upper : d.Leads start front m top)
    (ends : d.get? top = some .directory) :
    (d.erase (dir ++ [name])).Leads start front m top := by
  rcases upper.avoids_or_passes dir name solid with avoids | ⟨rest, j, -, -, passes⟩
  · exact avoids
  · -- no step leads on from the file to a directory
    exfalso
    obtain ⟨mid, _, _, first, second, -⟩ := passes.split dir [name] rest
    obtain ⟨-, rfl⟩ := first.unique _ _ _ _ _ _ lower
    simp [second.directory_of_end _ _ _ _ ends] at file

/-- Two disks that differ in the name of one entry of a directory. -/
structure Renamed (d d' : Disk) (dir : Location) (name name' : String) (e : Entry) : Prop where
  source : d.get? (dir ++ [name]) = some e
  target : d'.get? (dir ++ [name']) = some e
  unused : d.get? (dir ++ [name']) = none
  freed : d'.get? (dir ++ [name]) = none
  same : ∀ l, l ≠ dir ++ [name] → l ≠ dir ++ [name'] → d.get? l = d'.get? l

variable {dir : Location} {name name' : String} {e : Entry}

theorem Renamed.symm (renamed : Renamed d d' dir name name' e) :
    Renamed d' d dir name' name e :=
  ⟨renamed.target, renamed.source, renamed.freed, renamed.unused,
    fun l first second => (renamed.same l second first).symm⟩

/-- All but the renamed entry is as before. -/
theorem Renamed.erase_isPartOf (renamed : Renamed d d' dir name name' e) :
    (d.erase (dir ++ [name])).IsPartOf d' := by
  intro l e' found
  rw [get?_erase _ (by simp)] at found
  split at found
  · cases found
  next apart =>
    have other : l ≠ dir ++ [name'] := by
      rintro rfl
      rw [renamed.unused] at found
      cases found
    exact ⟨e', by rw [← renamed.same l apart other, found], .refl e'⟩

/-- A file that is reached by the old name of an entry is reached by the new one. -/
theorem Renamed.leads (renamed : Renamed d d' dir name name' e) (solid : e ≠ .directory)
    (proper : IsStep name) (proper' : IsStep name') (start : Location) (front : List String)
    (m k : Nat) (l : Location) (content : ByteArray) (runnable : Bool)
    (upper : d.Leads start front m dir) (lower : d.Leads dir [name] k l)
    (file : d.get? l = some (.file content runnable)) :
    ∃ l', d'.Leads start (front ++ [name']) (m + k) l' ∧
      d'.get? l' = some (.file content runnable) := by
  have source : d.get? (dir ++ [name]) ≠ some .directory := by simp [renamed.source, solid]
  have directory := lower.directory_of_cons
  -- the way to the directory does without the entry
  have upper' : d'.Leads start front m dir :=
    (lower.avoids_file dir name source k l content runnable file start front m dir upper
      directory).mono renamed.erase_isPartOf
  have directory' : d'.get? dir = some .directory := by
    rw [← renamed.same dir (by simp) (by simp), directory]
  suffices lower' : ∃ l', d'.Leads dir [name'] k l' ∧
      d'.get? l' = some (.file content runnable) by
    obtain ⟨l', leads, found⟩ := lower'
    exact ⟨l', upper'.append _ _ _ _ _ _ _ leads, found⟩
  rcases lower.step_cases _ _ _ _ _ proper with ⟨_, there, plain, tail⟩ | ⟨_, _, there, rfl, tail⟩
  · cases tail
    rw [renamed.source] at there
    cases there
    exact ⟨dir ++ [name'], .enter directory' proper' renamed.target plain (.arrive _),
      by rw [renamed.target, ← renamed.source, file]⟩
  · -- the link keeps its target, and the way from there does not come back to it
    rw [List.append_nil] at tail
    have tail' := (tail.avoids_link dir name _ _ _ there).mono renamed.erase_isPartOf
    have apart : l ≠ dir ++ [name] := by
      rintro rfl
      simp [there] at file
    have other : l ≠ dir ++ [name'] := by
      rintro rfl
      simp [renamed.unused] at file
    rw [renamed.source] at there
    cases there
    exact ⟨l, .follow directory' proper' renamed.target (by simpa using tail'),
      by rw [← renamed.same l apart other, file]⟩

/-- An entry that led to a file by its old name is on no way to a directory by its new one. -/
theorem Leads.avoids_renamed (part : (d'.erase (dir ++ [name'])).IsPartOf d)
    (source : d.get? (dir ++ [name]) = some e) (target : d'.get? (dir ++ [name']) = some e)
    (solid : e ≠ .directory) (proper : IsStep name) (k : Nat) (l : Location)
    (lower : d.Leads dir [name] k l) (content : ByteArray) (runnable : Bool)
    (file : d.get? l = some (.file content runnable)) (start : Location) (front : List String)
    (m : Nat) (mid : Location) (leads : d'.Leads start front m mid)
    (ends : d'.get? mid = some .directory) :
    (d'.erase (dir ++ [name'])).Leads start front m mid := by
  have target' : d'.get? (dir ++ [name']) ≠ some .directory := by simp [target, solid]
  have back (l : Location) (found : d'.get? l = some .directory) :
      d.get? l = some .directory := by
    have apart : l ≠ dir ++ [name'] := fun same => target' (same ▸ found)
    have kept : (d'.erase (dir ++ [name'])).get? l = some .directory := by
      rw [get?_erase _ (by simp), if_neg apart, found]
    obtain ⟨e', there, rfl⟩ := part l .directory kept
    exact there
  rcases leads.avoids_or_passes dir name' target' with
    avoids | ⟨rest, j, -, proper', passes⟩
  · exact avoids
  · exfalso
    rcases passes.step_cases _ _ _ _ _ proper' with ⟨_, _, _, tail⟩ | ⟨aim, _, there, rfl, tail⟩
    · exact target' (tail.directory_of_end _ _ _ _ ends)
    · -- the link leads to the file that it led to before, and no step leads on from there
      obtain ⟨mid', m', _, first, second, -⟩ := tail.split _ aim.steps rest
      have directory := back mid' (second.directory_of_end _ _ _ _ ends)
      have first' := (first.avoids_link dir name' aim m' mid' there).mono part
      rw [target] at there
      cases there
      rcases lower.step_cases _ _ _ _ _ proper with
        ⟨_, there', plain, -⟩ | ⟨_, _, there', rfl, tail'⟩
      · rw [source] at there'
        cases there'
        exact plain aim rfl
      · rw [source] at there'
        cases there'
        rw [List.append_nil] at tail'
        obtain ⟨-, rfl⟩ := first'.unique _ _ _ _ _ _ tail'
        simp [file] at directory

end Disk

end Workbench
