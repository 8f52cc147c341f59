import Workbench.Proofs.Disk.Spot

/-! What a single change leaves as it was. A file is written where its path leads to afterwards,
directories are made on the way to their path, and what is removed lies at or below the entry that
the path names. -/
namespace Workbench

/-- Whether an entry is no link to a path with a NUL character. -/
def Entry.isClean : Entry → Bool
  | .link target => !target.hasNul
  | _ => true

namespace Disk

/-- A tree that an operating system can hold: no link is to a path with a NUL character. -/
structure IsStorable (d : Disk) : Prop extends d.IsTree where
  clean_links : ∀ l target, d.get? l = some (.link target) → target.hasNul = false

variable {d d' : Disk} {p : Path} {l : Location}

theorem ne_nil_of_get? (e : Entry) (found : d.get? l = some e) (solid : e ≠ .directory) : l ≠ [] := by
  rintro rfl
  rw [get?_nil] at found
  exact solid (Option.some.inj found).symm

theorem locate_mono (part : d.IsPartOf d') (work : d'.workDir = d.workDir)
    (located : d.locate true p = .ok l) : d'.locate true p = .ok l := by
  obtain ⟨clean, nonempty, taken⟩ := (locate_eq_ok_iff true p l).mp located
  obtain ⟨links, within, leads⟩ := leads_of_trace _ _ _ _ taken
  refine (locate_eq_ok_iff true p l).mpr ⟨clean, nonempty, ?_⟩
  rw [startOf, work]
  exact trace_of_leads _ _ _ links l (leads.mono part) within

theorem parentSpot_mono (part : d.IsPartOf d') (work : d'.workDir = d.workDir) (dir : Location)
    (name : String) (spotted : d.parentSpot p = .ok (dir, some name)) :
    d'.parentSpot p = .ok (dir, some name) := by
  obtain ⟨clean, nonempty, directory, proper, front, names, links, within, leads⟩ :=
    (parentSpot_eq_ok_iff dir name).mp spotted
  refine (parentSpot_eq_ok_iff dir name).mpr ⟨clean, nonempty, part.directory dir directory, proper,
    front, names, links, within, ?_⟩
  rw [startOf, work]
  exact leads.mono part

namespace IsStorable

theorem of_listed (formed : d.WellFormed) (clean : d.entries.all (·.2.isClean) = true) :
    d.IsStorable where
  toIsTree := formed.isTree
  clean_links k target found := by
    have below : k ≠ [] := ne_nil_of_get? _ found (by simp)
    rw [get?_of_ne k below] at found
    have each := List.all_eq_true.mp clean _ (mem_entries_of_lookup k _ found)
    simpa [Entry.isClean] using each

theorem put (storable : d.IsStorable) (dir : Location) (name : String) (e : Entry)
    (directory : d.get? dir = some .directory) (named : IsName name)
    (solid : d.get? (dir ++ [name]) ≠ some .directory) (linkless : e.IsPlain) :
    (d.put (dir ++ [name]) e).IsStorable where
  toIsTree := storable.toIsTree.put dir name e directory named solid fun target same =>
    absurd same (linkless target)
  clean_links k target found := by
    rw [get?_put _ _ (by simp)] at found
    split at found
    · exact absurd (Option.some.inj found) (linkless target)
    · exact storable.clean_links k target found

/-- A file may get other content. -/
theorem put_file (storable : d.IsStorable) (content content' : ByteArray) (runnable runnable' : Bool)
    (file : d.get? l = some (.file content runnable)) :
    (d.put l (.file content' runnable')).IsStorable := by
  obtain ⟨dir, name, rfl⟩ := (List.eq_nil_or_concat' l).resolve_left
    (ne_nil_of_get? _ file (by simp))
  exact storable.put dir name _ (storable.parent_directory dir name (by simp [file]))
    (storable.isName dir name (by simp [file])) (by simp [file]) (fun _ same => by cases same)

theorem eraseBelow (storable : d.IsStorable) (a : Location) : (d.eraseBelow a).IsStorable where
  toIsTree := storable.toIsTree.eraseBelow a
  clean_links k target found := by
    rw [get?_eraseBelow] at found
    split at found
    · cases found
    · exact storable.clean_links k target found

theorem erase (storable : d.IsStorable) (a : Location) (below : a ≠ [])
    (leaf : ∀ rest, rest ≠ [] → d.get? (a ++ rest) = none) : (d.erase a).IsStorable where
  toIsTree := storable.toIsTree.erase a leaf
  clean_links k target found :=
    storable.clean_links k target (get?_of_erase below k _ found)

end IsStorable

/-- What was added to a disk are directories and files, and files may have got other content. -/
structure Extended (d d' : Disk) : Prop where
  storable : d'.IsStorable
  part : d.IsPartOf d'
  workDir : d'.workDir = d.workDir
  link : ∀ l target, d'.get? l = some (.link target) → d.get? l = some (.link target)

theorem Extended.refl (storable : d.IsStorable) : Extended d d :=
  ⟨storable, .refl d, rfl, fun _ _ => id⟩

theorem Extended.trans {d'' : Disk} (first : Extended d d') (second : Extended d' d'') :
    Extended d d'' :=
  ⟨second.storable, first.part.trans second.part, second.workDir.trans first.workDir,
    fun l target found => first.link l target (second.link l target found)⟩

/-- A file at `l` was made or filled by a path that leads there afterwards. -/
structure Written (d : Disk) (p : Path) (l : Location) (d' : Disk) : Prop where
  located : d'.locate true p = .ok l
  file : ∃ content runnable, d'.get? l = some (.file content runnable)
  before : d.get? l = none ∨ ∃ content runnable, d.get? l = some (.file content runnable)
  same : ∀ k, k ≠ l → d'.get? k = d.get? k
  workDir : d'.workDir = d.workDir
  storable : d.IsStorable → d'.IsStorable

namespace Written

/-- A written file may get other content. -/
theorem refill (written : Written d p l d') (content : ByteArray) (runnable : Bool) :
    Written d p l (d'.put l (.file content runnable)) := by
  obtain ⟨content', runnable', file⟩ := written.file
  have below : l ≠ [] := ne_nil_of_get? _ file (by simp)
  have part := isPartOf_put_file l content' content runnable' runnable file
  constructor
  · exact locate_mono part rfl written.located
  · exact ⟨content, runnable, by rw [get?_put _ _ below, if_pos rfl]⟩
  · exact written.before
  · intro k apart
    rw [get?_put _ _ below, if_neg apart, written.same k apart]
  · exact written.workDir
  · exact fun storable => (written.storable storable).put_file content' content runnable' runnable file

theorem isPartOf (written : Written d p l d') : d.IsPartOf d' := by
  intro k e found
  by_cases here : k = l
  · subst here
    obtain ⟨content', runnable', file⟩ := written.file
    refine ⟨_, file, ?_⟩
    rcases written.before with absent | ⟨content, runnable, was⟩
    · simp [absent] at found
    · rw [was] at found
      cases found
      exact ⟨content', runnable', rfl⟩
  · exact ⟨e, by rw [written.same k here, found], .refl e⟩

/-- Writing makes no links. -/
theorem link (written : Written d p l d') (k : Location) (target : Path)
    (found : d'.get? k = some (.link target)) : d.get? k = some (.link target) := by
  have apart : k ≠ l := by
    rintro rfl
    obtain ⟨content, runnable, file⟩ := written.file
    simp [file] at found
  rwa [← written.same k apart]

theorem extended (written : Written d p l d') (storable : d.IsStorable) : Extended d d' :=
  ⟨written.storable storable, written.isPartOf, written.workDir, written.link⟩

/-- The way to a directory does without the file. -/
theorem leads_directory (written : Written d p l d') (here : Location) (steps : List String)
    (links : Nat) (k : Location) (leads : d'.Leads here steps links k)
    (directory : d'.get? k = some .directory) :
    d.Leads here steps links k ∧ d.get? k = some .directory := by
  obtain ⟨content, runnable, file⟩ := written.file
  obtain ⟨dir, name, rfl⟩ := (List.eq_nil_or_concat' l).resolve_left
    (ne_nil_of_get? _ file (by simp))
  have apart : k ≠ dir ++ [name] := by
    rintro rfl
    simp [file] at directory
  have part : (d'.erase (dir ++ [name])).IsPartOf d := by
    intro k e found
    rw [get?_erase _ (by simp)] at found
    split at found
    · cases found
    next other => exact ⟨e, by rw [← written.same k other, found], .refl e⟩
  have avoids := (leads.avoids_or_ends_at_file dir name content runnable file).resolve_right apart
  exact ⟨avoids.mono part, by rw [← written.same k apart, directory]⟩

/-- Writing a file makes no difference to where directories are found. -/
theorem isDir_eq (written : Written d p l d') (q : Path) : d'.isDir q = d.isDir q := by
  rw [Bool.eq_iff_iff, isDir_iff, isDir_iff]
  constructor
  · rintro ⟨m, located, directory⟩
    obtain ⟨clean, nonempty, taken⟩ := (locate_eq_ok_iff true q m).mp located
    obtain ⟨links, within, leads⟩ := leads_of_trace _ _ _ _ taken
    obtain ⟨leads, directory⟩ := written.leads_directory _ _ _ _ leads directory
    rw [startOf, written.workDir, ← startOf] at leads
    exact ⟨m, (locate_eq_ok_iff true q m).mpr
      ⟨clean, nonempty, trace_of_leads _ _ _ links m leads within⟩, directory⟩
  · rintro ⟨m, located, directory⟩
    exact ⟨m, locate_mono written.isPartOf written.workDir located,
      written.isPartOf.directory m directory⟩

/-- Nor does it make one to what is named in them. -/
theorem parentSpot_iff (written : Written d p l d') (q : Path) (dir : Location) (name : String) :
    d'.parentSpot q = .ok (dir, some name) ↔ d.parentSpot q = .ok (dir, some name) := by
  constructor
  · intro spotted
    obtain ⟨clean, nonempty, directory, proper, front, names, links, within, leads⟩ :=
      (parentSpot_eq_ok_iff dir name).mp spotted
    obtain ⟨leads, directory⟩ := written.leads_directory _ _ _ _ leads directory
    rw [startOf, written.workDir, ← startOf] at leads
    exact (parentSpot_eq_ok_iff dir name).mpr
      ⟨clean, nonempty, directory, proper, front, names, links, within, leads⟩
  · exact parentSpot_mono written.isPartOf written.workDir dir name

end Written

theorem written_of_opened (truncate : Bool) (opened : d.openForWriting truncate p = .ok (l, d')) :
    Written d p l d' := by
  unfold openForWriting at opened
  split at opened
  · cases spotted : d.parentSpot p <;> simp [spotted, bind, Except.bind] at opened
  · cases traced : d.spot true p with
    | error fault => simp [traced, bind, Except.bind] at opened
    | ok spot =>
      cases spot with
      | free dir name =>
        simp only [traced, bind, Except.bind] at opened
        cases opened
        obtain ⟨lacks, listed, located⟩ := spot_free true dir name traced
        have below : dir ++ [name] ≠ [] := by simp
        have plain : (Entry.file .empty false).IsPlain := fun _ same => by cases same
        constructor
        · exact located _ plain
        · exact ⟨.empty, false, by rw [get?_put _ _ below, if_pos rfl]⟩
        · exact .inl lacks.absent
        · intro k apart
          rw [get?_put _ _ below, if_neg apart]
        · rfl
        · intro storable
          have named : IsName name := by
            rcases listed with ⟨clean, member⟩ | ⟨k, target, found, member⟩
            · exact lacks.step.isName name clean member
            · exact lacks.step.isName name (storable.clean_links k target found) member
          exact storable.put dir name _ lacks.directory named (by simp [lacks.absent]) plain
      | taken there =>
        have located : d.locate true p = .ok there := by simp [locate, traced, bind, Except.bind]
        cases found : d.get? there with
        | none => simp [traced, bind, Except.bind, found] at opened
        | some e =>
          cases e with
          | file content runnable =>
            have stays : Written d p there d :=
              ⟨located, ⟨content, runnable, found⟩, .inr ⟨content, runnable, found⟩,
                fun _ _ => rfl, rfl, id⟩
            simp only [traced, bind, Except.bind, found] at opened
            cases opened
            split
            · exact stays.refill .empty runnable
            · exact stays
          | directory => simp [traced, bind, Except.bind, found] at opened
          | link target => simp [traced, bind, Except.bind, found] at opened

/-- A file that is opened is made empty if it was not there, and one that was there is emptied only
if it is to be written anew. -/
theorem file_of_opened (truncate : Bool) (opened : d.openForWriting truncate p = .ok (l, d')) :
    d.get? l = none ∧ d'.get? l = some (.file .empty false) ∨
      ∃ content runnable, d.get? l = some (.file content runnable) ∧
        d'.get? l = some (.file (if truncate then .empty else content) runnable) := by
  have below : l ≠ [] := by
    obtain ⟨content, runnable, file⟩ := (written_of_opened truncate opened).file
    exact ne_nil_of_get? _ file (by simp)
  unfold openForWriting at opened
  split at opened
  · cases spotted : d.parentSpot p <;> simp [spotted, bind, Except.bind] at opened
  · cases traced : d.spot true p with
    | error fault => simp [traced, bind, Except.bind] at opened
    | ok spot =>
      cases spot with
      | free dir name =>
        simp only [traced, bind, Except.bind] at opened
        cases opened
        exact .inl ⟨(spot_free true dir name traced).1.absent, by rw [get?_put _ _ below, if_pos rfl]⟩
      | taken there =>
        simp only [traced, bind, Except.bind] at opened
        split at opened
        next content runnable found =>
          cases opened
          refine .inr ⟨content, runnable, found, ?_⟩
          split
          · rw [get?_put _ _ below, if_pos rfl]
          · exact found
        next => cases opened

/-- A file that is opened to be written anew is empty, and one that is made then cannot be run. -/
theorem empty_of_opened (opened : d.openForWriting true p = .ok (l, d')) :
    ∃ runnable, d'.get? l = some (.file .empty runnable) ∧ (d.get? l = none → runnable = false) := by
  rcases file_of_opened true opened with ⟨-, made⟩ | ⟨_, runnable, found, emptied⟩
  · exact ⟨false, made, fun _ => rfl⟩
  · exact ⟨runnable, emptied, fun absent => by simp [absent] at found⟩

/-- A file that was written holds the bytes, and cannot be run if it was made then. -/
theorem writeBytes_eq_ok (bytes : ByteArray) (wrote : d.writeBytes p bytes = .ok d') :
    ∃ l, Written d p l d' ∧ ∃ runnable, d'.get? l = some (.file bytes runnable) ∧
      (d.get? l = none → runnable = false) := by
  unfold writeBytes at wrote
  cases opened : d.openForWriting true p with
  | error fault => simp [opened, bind, Except.bind] at wrote
  | ok result =>
    obtain ⟨l, mid⟩ := result
    obtain ⟨runnable, file, fresh⟩ := empty_of_opened opened
    have below : l ≠ [] := ne_nil_of_get? _ file (by simp)
    have same : mid.put l (.file bytes runnable) = d' := by
      simpa [opened, bind, Except.bind, pure, Except.pure, appendAt, file] using wrote
    subst same
    exact ⟨l, (written_of_opened true opened).refill bytes runnable, runnable,
      by rw [get?_put _ _ below, if_pos rfl], fresh⟩

/-- A file that was copied holds what the source held, unless they are the same file. -/
theorem copyFile_eq_ok (source target : Path) (copied : d.copyFile source target = .ok d') :
    ∃ l content runnable t content', d.locate true source = .ok l ∧
      d.get? l = some (.file content runnable) ∧ Written d target t d' ∧
      d'.get? t = some (.file content' runnable) ∧ (l ≠ t → content' = content) := by
  unfold copyFile at copied
  cases located : d.locate true source with
  | error fault => simp [located, bind, Except.bind] at copied
  | ok l =>
    simp only [located, bind, Except.bind] at copied
    split at copied
    next content runnable file =>
      cases opened : d.openForWriting true target with
      | error fault => simp [opened] at copied
      | ok result =>
        obtain ⟨t, mid⟩ := result
        have written := written_of_opened true opened
        have below : t ≠ [] := by
          obtain ⟨content, runnable, file⟩ := written.file
          exact ne_nil_of_get? _ file (by simp)
        simp only [opened, pure, Except.pure] at copied
        cases copied
        refine ⟨l, content, runnable, t, _, rfl, file, written.refill _ _,
          by rw [get?_put _ _ below, if_pos rfl], fun apart => ?_⟩
        rw [written.same l apart, file]
    next => cases copied

/-- Directories were made at places that were free, on the way to a path. -/
structure Made (p : Path) (d d' : Disk) : Prop where
  kept : ∀ l e, d.get? l = some e → d'.get? l = some e
  made : ∀ l, d.get? l = none → (d'.get? l).isSome → d'.get? l = some .directory ∧
    ∃ front links, front <+: p.names ∧ d'.Leads (d.startOf p) front links l
  workDir : d'.workDir = d.workDir
  storable : d.IsStorable → d'.IsStorable

namespace Made

theorem refl (p : Path) (d : Disk) : Made p d d :=
  ⟨fun _ _ => id, fun _ absent there => by simp [absent] at there, rfl, id⟩

theorem isPartOf (made : Made p d d') : d.IsPartOf d' :=
  fun l e found => ⟨e, made.kept l e found, .refl e⟩

theorem trans {d'' : Disk} (first : Made p d d') (second : Made p d' d'') : Made p d d'' := by
  have start : d'.startOf p = d.startOf p := by rw [startOf, first.workDir, startOf]
  constructor
  · exact fun l e found => second.kept l e (first.kept l e found)
  · intro l absent there
    by_cases between : (d'.get? l).isSome
    · obtain ⟨directory, front, links, begins, leads⟩ := first.made l absent between
      exact ⟨second.kept l _ directory, front, links, begins, leads.mono second.isPartOf⟩
    · rw [← start]
      exact second.made l (by simpa using between) there
  · rw [second.workDir, first.workDir]
  · exact fun storable => second.storable (first.storable storable)

/-- Whatever is no directory was there before. -/
theorem get?_of_solid (made : Made p d d') {e : Entry} (found : d'.get? l = some e)
    (solid : e ≠ .directory) : d.get? l = some e := by
  cases was : d.get? l with
  | none =>
    have directory := (made.made l was (by simp [found])).1
    rw [found] at directory
    exact absurd (Option.some.inj directory) solid
  | some other => rw [← made.kept l other was, found]

/-- Making directories makes no links. -/
theorem link (made : Made p d d') (k : Location) (target : Path)
    (found : d'.get? k = some (.link target)) : d.get? k = some (.link target) :=
  made.get?_of_solid found (by simp)

theorem extended (made : Made p d d') (storable : d.IsStorable) : Extended d d' :=
  ⟨made.storable storable, made.isPartOf, made.workDir, made.link⟩

/-- What lies on the way to the parent of a path lies on the way to the path. -/
theorem of_parent (q : Path) (parent : p.parent? = some q) (made : Made q d d') : Made p d d' := by
  refine ⟨made.kept, fun l absent there => ?_, made.workDir, made.storable⟩
  obtain ⟨directory, front, links, begins, leads⟩ := made.made l absent there
  refine ⟨directory, front, links, begins.trans (Path.isPrefix_parent?_names parent), ?_⟩
  rwa [startOf, ← Path.parent?_isAbsolute parent, ← startOf]

end Made

/-- A directory is made under a name that was not used, and its path leads to it from then on. -/
theorem makeDir_eq_ok (done : d.makeDir p = .ok d') :
    ∃ dir name, d.get? dir = some .directory ∧ d.get? (dir ++ [name]) = none ∧
      IsName name ∧ d' = d.put (dir ++ [name]) .directory ∧
      d'.locate true p = .ok (dir ++ [name]) := by
  unfold makeDir at done
  cases spotted : d.parentSpot p with
  | error fault => simp [spotted, bind, Except.bind] at done
  | ok result =>
    obtain ⟨dir, last⟩ := result
    cases last with
    | none => simp [spotted, bind, Except.bind] at done
    | some name =>
      cases absent : d.get? (dir ++ [name]) with
      | some e => simp [spotted, bind, Except.bind, absent] at done
      | none =>
        simp only [spotted, bind, Except.bind, absent] at done
        cases done
        obtain ⟨clean, nonempty, directory, proper, front, names, links, within, leads⟩ :=
          (parentSpot_eq_ok_iff dir name).mp spotted
        have below : dir ++ [name] ≠ [] := by simp
        have there : (d.put (dir ++ [name]) .directory).get? (dir ++ [name]) = some .directory := by
          rw [get?_put _ _ below, if_pos rfl]
        have part : d.IsPartOf (d.put (dir ++ [name]) .directory) := by
          intro l e found
          refine ⟨e, ?_, .refl e⟩
          have apart : l ≠ dir ++ [name] := by
            rintro rfl
            simp [absent] at found
          rw [get?_put _ _ below, if_neg apart, found]
        refine ⟨dir, name, directory, absent, ?_, rfl, ?_⟩
        · have listed : name ∈ p.steps := by
            rw [Path.steps, names]
            split <;> simp
          exact proper.isName name clean listed
        · -- the path leads to the new directory through the one it was made in
          refine (locate_directory_iff there).mpr ⟨clean, nonempty, links, within, ?_⟩
          rw [names]
          exact (leads.mono part).append _ _ _ [name] links 0 _
            (.enter (part.directory _ directory) proper there Entry.isPlain_directory (.arrive _))

theorem made_of_makeDir (done : d.makeDir p = .ok d') : Made p d d' := by
  obtain ⟨dir, name, directory, absent, named, rfl, located⟩ := makeDir_eq_ok done
  have after (l : Location) :=
    get?_put (d := d) (dir ++ [name]) .directory (by simp) l
  refine ⟨fun l e found => ?_, fun l vacant there => ?_, rfl, fun storable => ?_⟩
  · have apart : l ≠ dir ++ [name] := by
      rintro rfl
      simp [absent] at found
    rw [after, if_neg apart, found]
  · have here : l = dir ++ [name] := by
      by_contra apart
      rw [after, if_neg apart, vacant] at there
      cases there
    subst here
    obtain ⟨-, -, links, -, leads⟩ := leads_of_locate located
    exact ⟨by rw [after, if_pos rfl], p.names, links, List.prefix_rfl, leads⟩
  · exact storable.put dir name _ directory named (by simp [absent])
      Entry.isPlain_directory

/-- How a directory is made that those above it may be missing for: at once, or after them, if
nothing is at the path already. -/
inductive Making (n : Nat) (p : Path) (d : Disk) : Except Fault Unit → Disk → Prop where
  | one (d' : Disk) (made : d.makeDir p = .ok d') : Making n p d (.ok ()) d'
  | stays (result : Except Fault Unit) (isDir : result = .ok () → d.isDir p = true) :
      Making n p d result d
  | blocked (q : Path) (parent : p.parent? = some q) (fault : Fault) (mid : Disk)
      (above : makeDirsWithin n q d = (.error fault, mid)) : Making n p d (.error fault) mid
  | last (q : Path) (parent : p.parent? = some q) (mid d' : Disk)
      (above : makeDirsWithin n q d = (.ok (), mid)) (made : mid.makeDir p = .ok d') :
      Making n p d (.ok ()) d'
  | reached (q : Path) (parent : p.parent? = some q) (mid : Disk)
      (above : makeDirsWithin n q d = (.ok (), mid)) (result : Except Fault Unit)
      (isDir : result = .ok () → mid.isDir p = true) : Making n p d result mid

theorem making_of_makeDirsWithin {n : Nat} {result : Except Fault Unit}
    (done : makeDirsWithin (n + 1) p d = (result, d')) : Making n p d result d' := by
  unfold makeDirsWithin at done
  split at done
  next made =>
    cases done
    exact .one _ made
  next =>
    split at done
    next =>
      cases done
      exact .stays _ nofun
    next q parent =>
      cases above : makeDirsWithin n q d with
      | mk outcome mid =>
        rw [above] at done
        cases outcome with
        | error fault =>
          cases done
          exact .blocked q parent fault _ above
        | ok =>
          dsimp only at done
          split at done
          next made =>
            cases done
            exact .last q parent mid _ above made
          next =>
            split at done
            next isDir =>
              cases done
              exact .reached q parent _ above _ fun _ => isDir
            next =>
              cases done
              exact .reached q parent _ above _ nofun
  next =>
    split at done
    next isDir =>
      cases done
      exact .stays _ fun _ => isDir
    next =>
      cases done
      exact .stays _ nofun

theorem made_of_makeDirsWithin (n : Nat) (p : Path) (d : Disk) :
    Made p d (makeDirsWithin n p d).2 := by
  induction n generalizing p d with
  | zero => exact .refl p d
  | succ n ih =>
    have made (q : Path) (parent : p.parent? = some q) (result : Except Fault Unit) (mid : Disk)
        (above : makeDirsWithin n q d = (result, mid)) : Made p d mid := by
      have upper := (ih q d).of_parent q parent
      rwa [above] at upper
    cases done : makeDirsWithin (n + 1) p d with
    | mk result d' =>
      cases making_of_makeDirsWithin done with
      | one _ here => exact made_of_makeDir here
      | stays => exact .refl p d
      | blocked q parent _ _ above => exact made q parent _ _ above
      | last q parent _ _ above here => exact (made q parent _ _ above).trans (made_of_makeDir here)
      | reached q parent _ above => exact made q parent _ _ above

theorem made_of_makeDirs (p : Path) (d : Disk) : Made p d (makeDirs p d).2 :=
  made_of_makeDirsWithin _ p d

/-- Nothing is made on the way to a directory that is there. -/
theorem makeDirs_of_located (located : d.locate true p = .ok l)
    (directory : d.get? l = some .directory) : makeDirs p d = (.ok (), d) := by
  have isDir : d.isDir p = true := (isDir_iff _).mpr ⟨l, located, directory⟩
  unfold makeDirs
  cases p.components.length with
  | zero => rfl
  | succ n => simp [makeDirsWithin, makeDir_of_located located directory, isDir]

/-- Once directories are made the path leads to one. -/
theorem isDir_of_makeDirs (nonempty : p.text ≠ "") (done : makeDirs p d = (.ok (), d')) :
    d'.isDir p = true := by
  obtain ⟨n, length⟩ := Nat.exists_eq_succ_of_ne_zero
    (mt List.eq_nil_of_length_eq_zero (Path.components_ne_nil nonempty))
  rw [makeDirs, length] at done
  have made {mid last : Disk} (made : mid.makeDir p = .ok last) : last.isDir p = true := by
    obtain ⟨dir, name, -, -, -, rfl, located⟩ := makeDir_eq_ok made
    exact (isDir_iff p).mpr ⟨_, located, by rw [get?_put _ _ (by simp), if_pos rfl]⟩
  cases making_of_makeDirsWithin done with
  | one _ here => exact made here
  | last _ _ _ _ _ here => exact made here
  | stays _ isDir => exact isDir rfl
  | reached _ _ _ _ _ isDir => exact isDir rfl

/-- A path without the dots and slashes at its end leads to the same directory. -/
theorem locate_trimmed (located : d.locate true p = .ok l)
    (directory : d.get? l = some .directory) : d.locate true p.trimmed = .ok l := by
  obtain ⟨clean, nonempty, links, within, leads⟩ := (locate_directory_iff directory).mp located
  obtain ⟨dots, names, still⟩ := p.names_trimmed
  rw [names] at leads
  have leads := leads.of_dots_behind _ p.trimmed.names dots still
  refine (locate_directory_iff directory).mpr
    ⟨Path.hasNul_cut _ p.isPrefix_trimmedBody clean, Path.trimmed_text_ne nonempty, links, within, ?_⟩
  rwa [startOf, Path.trimmed, Path.isAbsolute_cut _ p.isPrefix_trimmedBody
    (Path.trimmed_text_ne nonempty), ← startOf]

/-- A name behind the path of a directory names an entry of the directory. -/
theorem parentSpot_child (located : d.locate true p = .ok l)
    (directory : d.get? l = some .directory) (name : String) (named : IsName name) :
    d.parentSpot (p.child name) = .ok (l, some name) := by
  obtain ⟨clean, nonempty, links, within, leads⟩ := (locate_directory_iff directory).mp located
  have descends := Path.descends nonempty [name] (Location.isProper_singleton name named)
  refine (parentSpot_eq_ok_iff l name).mpr ⟨?_, descends.nonempty, directory,
    .of_isName name named, p.names, descends.names, links, within, ?_⟩
  · exact descends.hasNul.trans clean
  · rw [startOf]
    exact descends.isAbsolute ▸ leads

/-- A directory is made where a path names no entry of a directory yet. -/
theorem makeDirs_of_free (dir : Location) (name : String)
    (spotted : d.parentSpot p = .ok (dir, some name)) (absent : d.get? (dir ++ [name]) = none) :
    makeDirs p d = (.ok (), d.put (dir ++ [name]) .directory) := by
  have nonempty : p.text ≠ "" := ((parentSpot_eq_ok_iff dir name).mp spotted).2.1
  obtain ⟨n, length⟩ := Nat.exists_eq_succ_of_ne_zero
    (mt List.eq_nil_of_length_eq_zero (Path.components_ne_nil nonempty))
  have made : d.makeDir p = .ok (d.put (dir ++ [name]) .directory) := by
    simp [makeDir, spotted, absent, bind, Except.bind]
  simp only [makeDirs, length, makeDirsWithin, made]

/-- A directory is made in a directory, or something is there and nothing changes. -/
theorem makeDirs_child (located : d.locate true p = .ok l) (directory : d.get? l = some .directory)
    (name : String) (named : IsName name) :
    d.get? (l ++ [name]) = none ∧
        makeDirs (p.child name) d = (.ok (), d.put (l ++ [name]) .directory) ∨
      (makeDirs (p.child name) d).2 = d ∧
        ((makeDirs (p.child name) d).1 = .ok () → d.isDir (p.child name) = true) := by
  have spotted := parentSpot_child located directory name named
  cases found : d.get? (l ++ [name]) with
  | none => exact .inl ⟨rfl, makeDirs_of_free l name spotted found⟩
  | some e =>
    have below : (p.child name).text ≠ "" := ((parentSpot_eq_ok_iff l name).mp spotted).2.1
    obtain ⟨n, length⟩ := Nat.exists_eq_succ_of_ne_zero
      (mt List.eq_nil_of_length_eq_zero (Path.components_ne_nil below))
    have made : d.makeDir (p.child name) = .error .exists := by
      simp [makeDir, spotted, found, bind, Except.bind]
    simp only [makeDirs, length, makeDirsWithin, made]
    split
    next isDir => exact .inr ⟨rfl, fun _ => isDir⟩
    next => exact .inr ⟨rfl, fun ok => by cases ok⟩

theorem erase_isPartOf (a : Location) (below : a ≠ []) : (d.erase a).IsPartOf d :=
  fun k e found => ⟨e, get?_of_erase below k e found, .refl e⟩

theorem eraseTree_isPartOf (a : Location) : (d.eraseTree a).IsPartOf d := by
  intro k e found
  rw [get?_eraseTree] at found
  split at found
  · cases found
  · exact ⟨e, found, .refl e⟩

/-- A file or a link is removed where its path leads to if the link is not followed. -/
theorem removeFile_eq_ok (removed : d.removeFile p = .ok d') :
    ∃ l e, d.locate false p = .ok l ∧ d.get? l = some e ∧ e ≠ .directory ∧ d' = d.erase l := by
  unfold removeFile at removed
  cases spotted : d.parentSpot p with
  | error fault => simp [spotted, bind, Except.bind] at removed
  | ok result =>
    obtain ⟨dir, last⟩ := result
    cases last with
    | none => simp [spotted, bind, Except.bind] at removed
    | some name =>
      cases found : d.get? (dir ++ [name]) with
      | none => simp [spotted, bind, Except.bind, found] at removed
      | some e =>
        have solid : e ≠ .directory := by
          rintro rfl
          simp [spotted, bind, Except.bind, found] at removed
        have removed : (if p.endsInSlash then Except.error Fault.notDirectory
            else .ok (d.erase (dir ++ [name]))) = .ok d' := by
          cases e <;> simp_all [bind, Except.bind]
        split at removed
        · cases removed
        next unclosed =>
          have located := locate_of_parentSpot false dir name e spotted found
            (.inr (by simpa using unclosed)) (.inr rfl)
          exact ⟨_, e, located, found, solid, (Except.ok.inj removed).symm⟩

/-- An empty directory is removed where its path leads to. -/
theorem removeDir_eq_ok (removed : d.removeDir p = .ok d') :
    ∃ l, l ≠ [] ∧ d.locate true p = .ok l ∧ d.get? l = some .directory ∧ d.namesAt l = [] ∧
      d' = d.erase l := by
  unfold removeDir at removed
  cases spotted : d.parentSpot p with
  | error fault => simp [spotted, bind, Except.bind] at removed
  | ok result =>
    obtain ⟨dir, last⟩ := result
    cases last with
    | none =>
      simp only [spotted, bind, Except.bind] at removed
      repeat' split at removed
      all_goals cases removed
    | some name =>
      cases found : d.get? (dir ++ [name]) with
      | none => simp [spotted, bind, Except.bind, found] at removed
      | some e =>
        cases e with
        | directory =>
          simp only [spotted, bind, Except.bind, found] at removed
          split at removed
          next empty =>
            have located := locate_of_parentSpot true dir name _ spotted found (.inl rfl)
              (.inl Entry.isPlain_directory)
            exact ⟨_, by simp, located, found, empty, (Except.ok.inj removed).symm⟩
          next => cases removed
        | file => simp [spotted, bind, Except.bind, found] at removed
        | link => simp [spotted, bind, Except.bind, found] at removed

/-- Entries at or below a location were taken away, if any were. -/
structure Removed (l : Location) (d d' : Disk) : Prop where
  same : ∀ k, ¬l <+: k → d'.get? k = d.get? k
  part : ∀ k e, d'.get? k = some e → d.get? k = some e
  workDir : d'.workDir = d.workDir
  storable : d.IsStorable → d'.IsStorable

namespace Removed

theorem isPartOf (removed : Removed l d d') : d'.IsPartOf d :=
  fun k e found => ⟨e, removed.part k e found, .refl e⟩

theorem erase (below : l ≠ [])
    (leaf : d.IsStorable → ∀ rest, rest ≠ [] → d.get? (l ++ rest) = none) :
    Removed l d (d.erase l) := by
  refine ⟨fun k outside => ?_, get?_of_erase below, rfl,
    fun storable => storable.erase l below (leaf storable)⟩
  rw [get?_erase _ below, if_neg]
  rintro rfl
  exact outside List.prefix_rfl

theorem eraseBelow (l : Location) (d : Disk) : Removed l d (d.eraseBelow l) := by
  refine ⟨fun k outside => ?_, fun k e found => ?_, rfl, fun storable => storable.eraseBelow l⟩
  · rw [get?_eraseBelow, if_neg fun below => outside below.1]
  · rw [get?_eraseBelow] at found
    split at found
    · cases found
    · exact found

theorem trans {d'' : Disk} (first : Removed l d d') (second : Removed l d' d'') :
    Removed l d d'' :=
  ⟨fun k outside => (second.same k outside).trans (first.same k outside),
    fun k e found => first.part k e (second.part k e found),
    second.workDir.trans first.workDir, fun storable => second.storable (first.storable storable)⟩

end Removed

theorem removed_of_removeFile (removed : d.removeFile p = .ok d') :
    ∃ l, d.locate false p = .ok l ∧ Removed l d d' := by
  obtain ⟨l, e, located, found, solid, rfl⟩ := removeFile_eq_ok removed
  exact ⟨l, located, .erase (ne_nil_of_get? e found solid) fun storable rest nonempty =>
    storable.none_below l rest (by simpa [found] using solid) nonempty⟩

/-- A directory is removed at the entry that the path names, and a link without what it leads to. -/
theorem removed_of_removeTree (p : Path) (d : Disk) :
    (removeTree p d).2 = d ∨ ∃ l, d.locate false p = .ok l ∧ Removed l d (removeTree p d).2 := by
  cases located : d.locate false p with
  | error fault => simp [removeTree, located]
  | ok l =>
    cases found : d.get? l with
    | none => simp [removeTree, located, found]
    | some e =>
      cases e with
      | file => simp [removeTree, located, found]
      | link target =>
        simp only [removeTree, located, found, Task.change]
        cases removed : d.removeFile p with
        | error fault => exact .inl rfl
        | ok d' =>
          obtain ⟨l', located', gone⟩ := removed_of_removeFile removed
          rw [located] at located'
          cases located'
          exact .inr ⟨l, rfl, gone⟩
      | directory =>
        right
        refine ⟨l, rfl, ?_⟩
        simp only [removeTree, located, found, Task.change]
        have emptied := Removed.eraseBelow l d
        cases removed : (d.eraseBelow l).removeDir p with
        | error fault => exact emptied
        | ok d' =>
          obtain ⟨m, below, located', -, empty, rfl⟩ := removeDir_eq_ok removed
          -- the emptied directory is the one that the path led to before
          have before := locate_mono emptied.isPartOf rfl located'
          have same : m = l := by
            rcases locate_cases false located with followed | ⟨-, target, link⟩
            · rw [followed] at before
              exact (Except.ok.inj before).symm
            · simp [found] at link
          subst same
          exact emptied.trans (.erase below fun storable rest nonempty =>
            storable.none_below_of_namesAt m rest empty nonempty)

end Disk

end Workbench
