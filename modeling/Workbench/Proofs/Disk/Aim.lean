import Workbench.Proofs.Disk.Swap

/-! Paths that keep to one place while the disk grows. Such a path comes to a directory without
passing the place itself and goes down from there, through directories that may still be missing. -/
namespace Workbench.Disk

open Workbench.Path (temporaryName)

/-- From a location the steps go down, and meet no link. -/
structure GoesDown (d : Disk) (mid : Location) (steps : List String) : Prop where
  level : ".." ∉ steps
  linkless : ∀ front, front <+: steps.filter (· ≠ ".") → front ≠ [] → ∀ target,
    d.get? (mid ++ front) ≠ some (.link target)

/-- The path of a file `name` in `dir`. It leads to some directory without the entry of the file, and
goes down from there. -/
structure Aims (d : Disk) (p : Path) (dir : Location) (name : String) : Prop where
  clean : p.hasNul = false
  level : p.endsInSlash = false
  step : IsStep name
  way : ∃ lead rest links mid, p.names = lead ++ rest ++ [name] ∧ links ≤ linkLimit ∧
    (d.erase (dir ++ [name])).Leads (d.startOf p) lead links mid ∧ d.get? mid = some .directory ∧
    d.GoesDown mid rest ∧ dir = mid ++ rest.filter (· ≠ ".")

/-- What a path names is the same on both disks, and reads the same. -/
structure Untouched (p : Path) (l : Location) (d d' : Disk) : Prop where
  entry : d'.get? l = d.get? l
  content : ∀ bytes, d'.readBytes p = .ok bytes ↔ d.readBytes p = .ok bytes

variable {d d' : Disk} {p : Path} {dir : Location} {name : String}

/-- A file is put where none is, or in the place of another. -/
theorem Extended.put_file (storable : d.IsStorable) (directory : d.get? dir = some .directory)
    (named : IsName name) (solid : d.get? (dir ++ [name]) ≠ some .directory)
    (unlinked : ∀ target, d.get? (dir ++ [name]) ≠ some (.link target)) (bytes : ByteArray)
    (runnable : Bool) : Extended d (d.put (dir ++ [name]) (.file bytes runnable)) := by
  have below : dir ++ [name] ≠ [] := by simp
  have plain : (Entry.file bytes runnable).IsPlain := fun _ same => by cases same
  refine ⟨storable.put dir name _ directory named solid plain, fun k e found => ?_, rfl,
    fun k target found => ?_⟩
  · rw [get?_put _ _ below]
    split
    next here =>
      subst here
      cases e with
      | file => exact ⟨_, rfl, _, _, rfl⟩
      | directory => exact absurd found solid
      | link target => exact absurd found (unlinked target)
    next => exact ⟨e, found, .refl e⟩
  · rw [get?_put _ _ below] at found
    split at found
    · cases found
    · exact found

theorem Untouched.refl (p : Path) (l : Location) (d : Disk) : Untouched p l d d :=
  ⟨rfl, fun _ => .rfl⟩

theorem Untouched.trans {l : Location} {d'' : Disk} (first : Untouched p l d d')
    (second : Untouched p l d' d'') : Untouched p l d d'' :=
  ⟨second.entry.trans first.entry, fun bytes => (second.content bytes).trans (first.content bytes)⟩

theorem erase_mono (a : Location) (below : a ≠ []) (part : d.IsPartOf d') :
    (d.erase a).IsPartOf (d'.erase a) := by
  intro k e found
  rw [get?_erase _ below] at found ⊢
  split at found
  · cases found
  next other =>
    rw [if_neg other]
    exact part k e found

/-- Steps that go down lead to a directory that is there. -/
theorem GoesDown.leads (tree : d.IsTree) (mid : Location) (rest : List String)
    (down : d.GoesDown mid rest)
    (directory : d.get? (mid ++ rest.filter (· ≠ ".")) = some .directory) :
    d.Leads mid rest 0 (mid ++ rest.filter (· ≠ ".")) := by
  have level := down.level
  clear down
  induction rest generalizing mid with
  | nil => simpa using Leads.arrive (d := d) mid
  | cons step rest ih =>
    have above : ".." ∉ rest := fun up => level (List.mem_cons_of_mem _ up)
    have here : d.get? mid = some .directory := by
      by_cases empty : (step :: rest).filter (· ≠ ".") = []
      · rwa [empty, List.append_nil] at directory
      · exact tree.directory_of_below mid _ empty (by rw [directory]; rfl)
    by_cases dot : step = "."
    · subst dot
      rw [List.filter_cons_of_neg (by simp)] at directory ⊢
      exact .stay here (ih mid directory above)
    · rw [List.filter_cons_of_pos (by simpa using dot), List.append_cons] at directory ⊢
      have next : d.get? (mid ++ [step]) = some .directory := by
        by_cases empty : rest.filter (· ≠ ".") = []
        · rwa [empty, List.append_nil] at directory
        · exact tree.directory_of_below _ _ empty (by rw [directory]; rfl)
      have named : IsName step := tree.isName mid step (by simp [next])
      exact .enter here (.of_isName step named) next Entry.isPlain_directory
        (ih (mid ++ [step]) directory above)

/-- Once the directories on the way are made, the rest of a replacement is one on its own. -/
theorem replace_of_makeDirs (spotted : d'.parentSpot p = .ok (dir, some name)) (q : Path)
    (parent : p.parent? = some q) (done : makeDirs q d = (.ok (), d')) (bytes : ByteArray) :
    replace p bytes d = replace p bytes d' := by
  obtain ⟨q', parent', idle⟩ := makeDirs_parent spotted
  rw [parent] at parent'
  cases parent'
  rw [replace_of_parent parent, replace_of_parent parent, done, idle]

namespace Aims

theorem text_ne (aims : Aims d p dir name) : p.text ≠ "" := by
  obtain ⟨lead, rest, _, _, names, -⟩ := aims.way
  intro empty
  have lone : p = ⟨""⟩ := by cases p; simpa using empty
  subst lone
  have nameless : Path.names ⟨""⟩ = [] := by decide
  simp [nameless] at names

theorem exists_front (aims : Aims d p dir name) : ∃ front, p.names = front ++ [name] := by
  obtain ⟨lead, rest, _, _, names, -⟩ := aims.way
  exact ⟨lead ++ rest, names⟩

/-- The names before the last lead to the directory of the file. On a disk with more on it, too, the
first of them lead to what was there without the file, or down to the directory. -/
theorem cases_of_leads (aims : Aims d p dir name) (grown : Extended d d') (front : List String)
    (begins : front <+: p.names.dropLast) (links : Nat) (k : Location)
    (leads : d'.Leads (d'.startOf p) front links k) :
    (((d.erase (dir ++ [name])).get? k).isSome ∨ k <+: dir) ∧
      (front = p.names.dropLast → k = dir) := by
  obtain ⟨lead, rest, n, mid, names, -, way, directory, down, rfl⟩ := aims.way
  rw [names, List.dropLast_concat] at begins ⊢
  have below : mid ++ rest.filter (· ≠ ".") ++ [name] ≠ [] := by simp
  have later {here there : Location} {steps : List String} {links : Nat}
      (way : (d.erase (mid ++ rest.filter (· ≠ ".") ++ [name])).Leads here steps links there) :=
    (way.mono (erase_isPartOf _ below)).mono grown.part
  have start : d'.startOf p = d.startOf p := by rw [startOf, grown.workDir, startOf]
  rw [start] at leads
  have middle : mid ≠ mid ++ rest.filter (· ≠ ".") ++ [name] := by simp
  rcases List.prefix_or_prefix_of_prefix begins (List.prefix_append lead rest) with
    ⟨more, rfl⟩ | ⟨more, rfl⟩
  · -- on the way to the directory every place is there without the entry
    obtain ⟨here, m, j, first, second, -⟩ := way.split _ front more
    obtain ⟨-, rfl⟩ := (later first).unique _ _ _ _ _ _ leads
    have ends : (d.erase (mid ++ rest.filter (· ≠ ".") ++ [name])).get? mid = some .directory := by
      rw [get?_erase _ below, if_neg middle, directory]
    refine ⟨.inl (by rw [second.directory_of_end _ _ _ _ ends]; rfl), fun same => ?_⟩
    have empty : more = [] ∧ rest = [] := by
      have lengths := congrArg List.length same
      simp only [List.length_append] at lengths
      constructor <;> exact List.eq_nil_of_length_eq_zero (by omega)
    obtain ⟨rfl, rfl⟩ := empty
    have whole := later way
    rw [List.append_nil] at whole
    simpa using ((leads.unique _ _ _ _ _ _ whole).2)
  · -- below the directory the steps go down by their names
    have more_le : more <+: rest := (List.prefix_append_right_inj _).mp begins
    obtain ⟨here, m, j, first, second, -⟩ := leads.split _ lead more
    obtain ⟨-, rfl⟩ := first.unique _ _ _ _ _ _ (later way)
    obtain ⟨-, rfl⟩ := second.direct _ _ _ _ (fun up => down.level (more_le.subset up))
      fun front begins nonempty target found =>
        down.linkless front (begins.trans (more_le.filter _)) nonempty target
          (grown.link _ target found)
    refine ⟨.inr ((List.prefix_append_right_inj _).mpr (more_le.filter _)), fun same => ?_⟩
    rw [List.append_cancel_left same]

/-- Where the directory of the file is there, the path names the file in it. -/
theorem parentSpot (aims : Aims d p dir name) (tree : d.IsTree)
    (directory : d.get? dir = some .directory) : d.parentSpot p = .ok (dir, some name) := by
  obtain ⟨lead, rest, links, mid, names, within, way, -, down, rfl⟩ := aims.way
  refine (parentSpot_eq_ok_iff _ name).mpr ⟨aims.clean, aims.text_ne, directory, aims.step,
    lead ++ rest, names, links, within, ?_⟩
  exact (way.mono (erase_isPartOf _ (by simp))).append _ _ _ _ links 0 _
    (down.leads tree mid rest directory)

theorem located (aims : Aims d p dir name) (tree : d.IsTree) (e : Entry)
    (found : d.get? (dir ++ [name]) = some e) (plain : e.IsPlain) :
    d.locate true p = .ok (dir ++ [name]) :=
  locate_of_parentSpot true dir name e
    (aims.parentSpot tree (tree.parent_directory dir name (by simp [found]))) found
    (.inr aims.level) (.inl plain)

/-- Without the file the path leads nowhere. -/
theorem not_located (aims : Aims d p dir name) (storable : d.IsStorable)
    (absent : d.get? (dir ++ [name]) = none) (k : Location) : d.locate true p ≠ .ok k := by
  intro located
  obtain ⟨front, names⟩ := aims.exists_front
  obtain ⟨-, -, links, -, leads⟩ := leads_of_locate located
  rw [names] at leads
  obtain ⟨here, m, j, first, second, -⟩ := leads.split _ front [name]
  have same : here = dir :=
    (aims.cases_of_leads (.refl storable) front (by simp [names]) m here first).2
      (by simp [names])
  subst same
  rcases second.step_cases _ _ _ _ _ aims.step with ⟨_, found, -⟩ | ⟨_, _, found, -⟩
  · simp [absent] at found
  · simp [absent] at found

/-- The path keeps to its place on a disk that has as much on the way and no new link. -/
theorem mono (aims : Aims d p dir name) (work : d'.workDir = d.workDir)
    (part : (d.erase (dir ++ [name])).IsPartOf (d'.erase (dir ++ [name])))
    (link : ∀ k target, k ≠ dir ++ [name] → d'.get? k = some (.link target) →
      d.get? k = some (.link target)) : Aims d' p dir name := by
  obtain ⟨lead, rest, links, mid, names, within, way, directory, down, rfl⟩ := aims.way
  have below : mid ++ rest.filter (· ≠ ".") ++ [name] ≠ [] := by simp
  have middle : mid ≠ mid ++ rest.filter (· ≠ ".") ++ [name] := by simp
  refine ⟨aims.clean, aims.level, aims.step, lead, rest, links, mid, names, within, ?_, ?_,
    ⟨down.level, fun front begins nonempty target found => ?_⟩, rfl⟩
  · rw [startOf, work]
    exact way.mono part
  · have kept := part.directory mid (by rw [get?_erase _ below, if_neg middle, directory])
    rwa [get?_erase _ below, if_neg middle] at kept
  · refine down.linkless front begins nonempty target (link _ target ?_ found)
    intro same
    have lengths := congrArg List.length same
    have shorter := begins.length_le
    simp only [List.length_append, List.length_singleton] at lengths
    omega

theorem extended (aims : Aims d p dir name) (grown : Extended d d') : Aims d' p dir name :=
  aims.mono grown.workDir (erase_mono _ (by simp) grown.part)
    fun k target _ found => grown.link k target found

/-- Directories that are made on the way to the path lie on the way down to the directory of the
file. -/
theorem isPrefix_of_made (aims : Aims d p dir name) (storable : d.IsStorable) (q : Path)
    (parent : p.parent? = some q) (made : Made q d d') (k : Location) (absent : d.get? k = none)
    (there : (d'.get? k).isSome) : k <+: dir := by
  have grown := made.extended storable
  obtain ⟨front, names⟩ := aims.exists_front
  obtain ⟨-, begun, links, begins, leads⟩ := made.made k absent there
  -- what lies on the way to the parent comes before the last name
  obtain ⟨above, dots, same, -, before, -⟩ := Path.exists_parent names aims.step.1 aims.step.2.1
  rw [parent] at same
  cases same
  have start : d.startOf q = d'.startOf p := by
    rw [startOf, startOf, grown.workDir, Path.parent?_isAbsolute parent]
  rw [start] at leads
  have early : begun <+: p.names.dropLast := by
    rw [names, List.dropLast_concat, before]
    exact begins.trans (List.prefix_append _ dots)
  refine (aims.cases_of_leads grown begun early links k leads).1.resolve_left fun before => ?_
  obtain ⟨e, found⟩ := Option.isSome_iff_exists.mp before
  rw [get?_of_erase (by simp) k e found] at absent
  cases absent

/-- No directory on the way to the path is made in the place of the file. -/
theorem made (aims : Aims d p dir name) (storable : d.IsStorable) (q : Path)
    (parent : p.parent? = some q) (made : Made q d d') :
    d'.get? (dir ++ [name]) = d.get? (dir ++ [name]) := by
  cases was : d.get? (dir ++ [name]) with
  | some e => exact made.kept _ e was
  | none =>
    by_contra new
    have inside := aims.isPrefix_of_made storable q parent made _ was
      (Option.isSome_iff_ne_none.mpr new)
    have lengths := inside.length_le
    simp only [List.length_append, List.length_singleton] at lengths
    omega

/-- Once the directories on its way are made the path names the file in its directory. -/
theorem parentSpot_of_makeDirs (aims : Aims d p dir name) (storable : d.IsStorable) (q : Path)
    (parent : p.parent? = some q) (done : makeDirs q d = (.ok (), d')) :
    d'.parentSpot p = .ok (dir, some name) := by
  have grown : Extended d d' := by
    have made := made_of_makeDirs q d
    rw [done] at made
    exact made.extended storable
  have aims' := aims.extended grown
  refine aims'.parentSpot grown.storable.toIsTree ?_
  obtain ⟨front, names⟩ := aims.exists_front
  obtain ⟨above, dots, same, -, before, still, -⟩ :=
    Path.exists_parent names aims.step.1 aims.step.2.1
  rw [parent] at same
  cases same
  by_cases empty : q.text = ""
  · -- there are only dots before the name
    have lone : q = ⟨""⟩ := by cases q; simpa using empty
    subst lone
    have nameless : Path.names ⟨""⟩ = [] := by decide
    obtain ⟨lead, rest, links, mid, names', -, -, directory, -, rfl⟩ := aims'.way
    rw [nameless, List.nil_append] at before
    have dotted : lead ++ rest = dots := by
      rw [← before]
      exact (List.append_inj' (names'.symm.trans names) rfl).1
    have stays : rest.filter (· ≠ ".") = [] := by
      rw [List.filter_eq_nil_iff]
      intro step member
      simpa using still step (by simp [← dotted, member])
    rw [stays, List.append_nil]
    exact directory
  · obtain ⟨l, located, directory⟩ := (isDir_iff q).mp (isDir_of_makeDirs empty done)
    obtain ⟨-, -, links, -, leads⟩ := leads_of_locate located
    rw [startOf, Path.parent?_isAbsolute parent, ← startOf] at leads
    have whole := leads.append _ _ _ _ _ 0 _ (leads_dots directory dots still)
    rw [← before] at whole
    rwa [← (aims.cases_of_leads grown front (by simp [names]) _ l whole).2 (by simp [names])]

/-- A file beside the one that the path names is not on the way. -/
theorem without (aims : Aims d p dir name) (other : String)
    (solid : d.get? (dir ++ [other]) ≠ some .directory)
    (unlinked : ∀ target, d.get? (dir ++ [other]) ≠ some (.link target)) :
    Aims (d.erase (dir ++ [other])) p dir name := by
  obtain ⟨lead, rest, links, mid, names, within, way, directory, down, same⟩ := aims.way
  have below : dir ++ [name] ≠ [] := by simp
  have below' : dir ++ [other] ≠ [] := by simp
  have middle : mid ≠ dir ++ [name] := by
    rw [same]
    simp
  have part := erase_isPartOf (d := d) _ below
  have absent := get?_of_erase (d := d) below (dir ++ [other])
  refine ⟨aims.clean, aims.level, aims.step, lead, rest, links, mid, names, within, ?_, ?_,
    ⟨down.level, fun front begins nonempty target found => ?_⟩, same⟩
  · rcases way.avoids_or_passes dir other (fun found => solid (absent _ found)) with
      avoids | ⟨more, k, -, proper, passes⟩
    · refine avoids.mono fun l e found => ⟨e, ?_, .refl e⟩
      rw [get?_erase _ below', get?_erase _ below] at found
      rw [get?_erase _ below, get?_erase _ below']
      split
      next here => simp [here] at found
      next here => simpa [here] using found
    · -- no step leads on from a file to the directory
      exfalso
      have ends : (d.erase (dir ++ [name])).get? mid = some .directory := by
        rw [get?_erase _ below, if_neg middle, directory]
      rcases passes.step_cases _ _ _ _ _ proper with ⟨e, found, -, tail⟩ | ⟨target, _, found, -⟩
      · exact solid (absent _ (tail.directory_of_end _ _ _ _ ends))
      · exact unlinked target (absent _ found)
  · rw [get?_erase _ below', if_neg, directory]
    rintro rfl
    exact solid directory
  · exact down.linkless front begins nonempty target (get?_of_erase below' _ _ found)

/-- The path keeps to its place when the file is replaced. -/
theorem swapped (aims : Aims d p dir name)
    (solid : d.get? (dir ++ [temporaryName name]) ≠ some .directory)
    (unlinked : ∀ target, d.get? (dir ++ [temporaryName name]) ≠ some (.link target))
    (bytes : ByteArray) (runnable : Bool) :
    Aims (d.swapped dir name bytes runnable) p dir name := by
  have below : dir ++ [name] ≠ [] := by simp
  have below' : dir ++ [temporaryName name] ≠ [] := by simp
  refine (aims.without (temporaryName name) solid unlinked).mono rfl (fun k e found => ?_)
    fun k target other found => ?_
  · refine ⟨e, ?_, .refl e⟩
    rw [get?_erase _ below, get?_erase _ below'] at found
    rw [get?_erase _ below, get?_swapped]
    split
    next here => simp [here] at found
    next other => simpa [other] using found
  · rw [get?_swapped, if_neg other] at found
    rwa [get?_erase _ below']

/-- Replacing a file that does not lie in a directory changes nothing there. -/
theorem get?_of_replace (aims : Aims d p dir name) (storable : d.IsStorable)
    (temporary : ∀ target, d.get? (dir ++ [temporaryName name]) ≠ some (.link target))
    (bytes : ByteArray) (replaced : replace p bytes d = (.ok (), d')) (l : Location)
    (directory : d.get? l = some .directory) (outside : ¬l <+: dir ++ [name])
    (names : Location) : d'.get? (l ++ names) = d.get? (l ++ names) := by
  obtain ⟨front, split⟩ := aims.exists_front
  obtain ⟨q, -, parent, -⟩ := Path.exists_parent split aims.step.1 aims.step.2.1
  have way := made_of_makeDirs q d
  obtain ⟨mid, done⟩ : ∃ mid, makeDirs q d = (.ok (), mid) := by
    rw [replace_of_parent parent] at replaced
    cases outcome : makeDirs q d with
    | mk result mid =>
      rw [outcome] at replaced
      cases result with
      | error fault => cases replaced
      | ok => exact ⟨mid, rfl⟩
  rw [done] at way
  have above : ¬l <+: dir := fun inside => outside (inside.trans (List.prefix_append dir [name]))
  -- the directories on the way are made outside
  have before (names : Location) : mid.get? (l ++ names) = d.get? (l ++ names) := by
    cases was : d.get? (l ++ names) with
    | some e => exact way.kept _ e was
    | none =>
      by_contra new
      have inside := aims.isPrefix_of_made storable q parent way _ was
        (Option.isSome_iff_ne_none.mpr new)
      exact above ((List.prefix_append l names).trans inside)
  have spotted := aims.parentSpot_of_makeDirs storable q parent done
  rw [replace_of_makeDirs spotted q parent done bytes] at replaced
  have unlinked (target : Path) (found : mid.get? (dir ++ [temporaryName name]) =
      some (.link target)) : False := temporary target (way.link _ target found)
  rcases replace_cases spotted unlinked bytes with
    ⟨e, failed⟩ | ⟨short, solid, runnable, ⟨e, failed, -⟩ | ⟨-, swapped⟩⟩
  · cases replaced.symm.trans failed
  · cases replaced.symm.trans failed
  · cases replaced.symm.trans swapped
    rw [get?_swapped, if_neg, if_neg, before]
    · intro here
      rcases List.prefix_concat_iff.mp (here ▸ List.prefix_append l names) with same | inside
      · -- the directory is not in the place of the temporary file
        rw [← same, ← List.append_nil l, before [], List.append_nil] at solid
        exact solid directory
      · exact above inside
    · intro here
      exact outside (here ▸ List.prefix_append l names)

end Aims

/-- A file that can be replaced by a path that keeps to its place. A link in the place leads to
something. -/
structure Replaceable (d : Disk) (p : Path) (dir : Location) (name : String) : Prop where
  storable : d.IsStorable
  aims : Aims d p dir name
  live : ∀ target, d.get? (dir ++ [name]) = some (.link target) → d.isThere p = true
  temporary : ∀ target, d.get? (dir ++ [temporaryName name]) ≠ some (.link target)

namespace Replaceable

theorem extended (sound : Replaceable d p dir name) (grown : Extended d d')
    (entry : d'.get? (dir ++ [name]) = d.get? (dir ++ [name])) : Replaceable d' p dir name := by
  refine ⟨grown.storable, sound.aims.extended grown, fun target found => ?_, fun target found => ?_⟩
  · obtain ⟨l, located, there⟩ := (isThere_iff p).mp (sound.live target (entry ▸ found))
    obtain ⟨e, found⟩ := Option.isSome_iff_exists.mp there
    obtain ⟨e', found', -⟩ := grown.part l e found
    exact (isThere_iff p).mpr ⟨l, locate_mono grown.part grown.workDir located, by simp [found']⟩
  · exact sound.temporary target (grown.link _ target found)

/-- The file reads as before if neither its place nor the one that a link there leads to changed. -/
theorem untouched (sound : Replaceable d p dir name) (grown : Extended d d')
    (same : ∀ k, k = dir ++ [name] ∨ d.locate true p = .ok k → d'.get? k = d.get? k) :
    Untouched p (dir ++ [name]) d d' := by
  have entry := same _ (.inl rfl)
  refine ⟨entry, fun bytes => ?_⟩
  rw [readBytes_eq_ok_iff, readBytes_eq_ok_iff]
  cases located : d.locate true p with
  | ok k =>
    rw [locate_mono grown.part grown.workDir located]
    constructor
    · rintro ⟨_, runnable, ⟨⟩, file⟩
      exact ⟨k, runnable, rfl, by rw [← same k (.inr located), file]⟩
    · rintro ⟨_, runnable, ⟨⟩, file⟩
      exact ⟨k, runnable, rfl, by rw [same k (.inr located), file]⟩
  | error fault =>
    -- nothing is in the place, neither before nor after
    have absent : d.get? (dir ++ [name]) = none := by
      by_contra absent
      obtain ⟨e, found⟩ := Option.ne_none_iff_exists'.mp absent
      by_cases link : ∃ target, e = .link target
      · obtain ⟨target, rfl⟩ := link
        obtain ⟨l, located', -⟩ := (isThere_iff p).mp (sound.live target found)
        rw [located] at located'
        cases located'
      · have located' := sound.aims.located sound.storable.toIsTree e found
          fun target same => link ⟨target, same⟩
        rw [located] at located'
        cases located'
    constructor
    · rintro ⟨k, _, located', -⟩
      exact absurd located' ((sound.aims.extended grown).not_located grown.storable
        (entry.trans absent) k)
    · rintro ⟨k, _, located', -⟩
      cases located'

/-- Making the directories on the way to the file leaves the file as it is. -/
theorem made (sound : Replaceable d p dir name) (q : Path) (parent : p.parent? = some q)
    (made : Made q d d') : Replaceable d' p dir name ∧ Untouched p (dir ++ [name]) d d' := by
  have grown := made.extended sound.storable
  have entry := sound.aims.made sound.storable q parent made
  refine ⟨sound.extended grown entry, sound.untouched grown ?_⟩
  rintro k (rfl | located)
  · exact entry
  · obtain ⟨e, found, -⟩ := locate_plain sound.storable.toIsTree p k located
    rw [found, made.kept k e found]

section

variable (sound : Replaceable d p dir name) (spotted : d.parentSpot p = .ok (dir, some name))
  (short : (temporaryName name).utf8ByteSize ≤ nameLimit)
  (solid : d.get? (dir ++ [temporaryName name]) ≠ some .directory)
include sound spotted short solid

/-- A temporary file that cannot take the place of a directory leaves that as it was. -/
theorem put_temporary (closed : d.get? (dir ++ [name]) = some .directory) (bytes : ByteArray)
    (runnable : Bool) :
    Replaceable (d.put (dir ++ [temporaryName name]) (.file bytes runnable)) p dir name ∧
      Untouched p (dir ++ [name]) d
        (d.put (dir ++ [temporaryName name]) (.file bytes runnable)) := by
  have directory := ((parentSpot_eq_ok_iff dir name).mp spotted).2.2.1
  have grown := Extended.put_file sound.storable directory
    (isName_temporaryName (isName_of_parentSpot spotted) short) solid sound.temporary bytes runnable
  have apart : dir ++ [name] ≠ dir ++ [temporaryName name] := by
    simpa using (Path.temporaryName_ne name).symm
  have entry : (d.put (dir ++ [temporaryName name]) (.file bytes runnable)).get? (dir ++ [name]) =
      d.get? (dir ++ [name]) := by
    rw [get?_put _ _ (by simp), if_neg apart]
  refine ⟨sound.extended grown entry, sound.untouched grown ?_⟩
  rintro k (rfl | located)
  · exact entry
  · have here := sound.aims.located sound.storable.toIsTree _ closed Entry.isPlain_directory
    rw [located] at here
    cases here
    exact entry

/-- A temporary file that takes the place of the file is read by its path. -/
theorem swapped (free : d.get? (dir ++ [name]) ≠ some .directory) (bytes : ByteArray)
    (runnable : Bool) :
    Replaceable (d.swapped dir name bytes runnable) p dir name ∧
      (d.swapped dir name bytes runnable).readBytes p = .ok bytes := by
  have directory := ((parentSpot_eq_ok_iff dir name).mp spotted).2.2.1
  have file : (d.swapped dir name bytes runnable).get? (dir ++ [name]) =
      some (.file bytes runnable) := by rw [get?_swapped, if_pos rfl]
  have storable := swapped_storable sound.storable directory (isName_of_parentSpot spotted) short
    free solid bytes runnable
  have aims := sound.aims.swapped solid sound.temporary bytes runnable
  refine ⟨⟨storable, aims, fun target found => ?_, fun target found => ?_⟩, ?_⟩
  · simp [file] at found
  · rw [get?_swapped, if_neg (by simpa using Path.temporaryName_ne name), if_pos rfl] at found
    cases found
  · exact (readBytes_eq_ok_iff p bytes).mpr ⟨_, runnable,
      aims.located storable.toIsTree _ file (fun _ same => by cases same), file⟩

end

/-- A replacement that fails leaves the file as it was, and one that does not gives it the bytes. -/
theorem replace (sound : Replaceable d p dir name) (bytes : ByteArray) :
    Replaceable (Disk.replace p bytes d).2 p dir name ∧
      ((Disk.replace p bytes d).1 = .ok () ∧ (Disk.replace p bytes d).2.readBytes p = .ok bytes ∨
        (∃ e, (Disk.replace p bytes d).1 = .error e) ∧
          Untouched p (dir ++ [name]) d (Disk.replace p bytes d).2) := by
  obtain ⟨front, names⟩ := sound.aims.exists_front
  obtain ⟨q, -, parent, -⟩ := Path.exists_parent names sound.aims.step.1 sound.aims.step.2.1
  have way := made_of_makeDirs q d
  cases done : makeDirs q d with
  | mk result mid =>
    rw [done] at way
    obtain ⟨sound', first⟩ := sound.made q parent way
    cases result with
    | error fault =>
      rw [replace_of_parent parent, done]
      exact ⟨sound', .inr ⟨⟨_, rfl⟩, first⟩⟩
    | ok =>
      have spotted := sound.aims.parentSpot_of_makeDirs sound.storable q parent done
      rw [replace_of_makeDirs spotted q parent done]
      rcases replace_cases spotted sound'.temporary bytes with
        ⟨e, failed⟩ | ⟨short, solid, runnable, ⟨e, failed, why⟩ | ⟨free, replaced⟩⟩
      · rw [failed]
        exact ⟨sound', .inr ⟨⟨e, rfl⟩, first⟩⟩
      · rw [failed]
        have closed := why.resolve_left (by simp [sound.aims.level])
        obtain ⟨sound'', second⟩ := sound'.put_temporary spotted short solid closed bytes runnable
        exact ⟨sound'', .inr ⟨⟨e, rfl⟩, first.trans second⟩⟩
      · rw [replaced]
        obtain ⟨sound'', read⟩ := sound'.swapped spotted short solid free bytes runnable
        exact ⟨sound'', .inl ⟨rfl, read⟩⟩

end Replaceable

end Workbench.Disk
