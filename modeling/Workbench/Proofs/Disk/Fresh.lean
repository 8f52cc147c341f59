import Workbench.Proofs.Disk.Task
import Workbench.Proofs.Disk.Write

/-! Directories that are made are empty. A path that goes up may lead to an old directory once the
missing ones on its way are made, and any other path to a new one. -/
namespace Workbench.Disk

/-- A path leads to a directory without entries. -/
structure Fresh (d : Disk) (p : Path) (l : Location) : Prop where
  located : d.locate true p = .ok l
  directory : d.get? l = some .directory
  empty : d.namesAt l = []

variable {d d' : Disk} {p : Path}

theorem fresh_of_makeDir (storable : d.IsStorable) (done : d.makeDir p = .ok d') :
    ∃ o, Fresh d' p o ∧ d.get? o = none := by
  obtain ⟨dir, name, directory, absent, named, rfl, located⟩ := makeDir_eq_ok done
  have after (l : Location) := get?_put (d := d) (dir ++ [name]) .directory (by simp) l
  refine ⟨dir ++ [name], ⟨located, by rw [after, if_pos rfl], ?_⟩, absent⟩
  refine List.eq_nil_iff_forall_not_mem.mpr fun x listed => ?_
  have there := (mem_namesAt _ x).mp listed
  rw [after, if_neg (by simp), storable.none_below _ [x] (by simp [absent]) (by simp)] at there
  cases there

/-- From an empty directory a name leads nowhere. -/
theorem Fresh.leads {q : Path} {o l : Location} (storable : d.IsStorable) (fresh : Fresh d q o)
    (dots : List String) (name : String) (rest : List String) (still : ∀ step ∈ dots, step = ".")
    (here : name ≠ ".") (up : name ≠ "..") (links : Nat) :
    ¬d.Leads (d.startOf q) (q.names ++ dots ++ name :: rest) links l := by
  intro leads
  obtain ⟨-, -, links', -, leads'⟩ := leads_of_locate fresh.located
  have absent := storable.none_below_of_namesAt o [name] fresh.empty (by simp)
  rw [List.append_assoc] at leads
  obtain ⟨mid, m, k, first, second, -⟩ := leads.split _ q.names (dots ++ name :: rest)
  obtain ⟨-, rfl⟩ := first.unique _ _ _ _ _ _ leads'
  clear leads first
  induction dots generalizing k with
  | nil =>
    cases second with
    | stay => exact here rfl
    | climb => exact up rfl
    | enter _ _ found => simp [absent] at found
    | follow _ _ found => simp [absent] at found
  | cons dot dots ih =>
    have same := still dot List.mem_cons_self
    cases second with
    | stay _ tail => exact ih (fun step later => still step (List.mem_cons_of_mem _ later)) k tail
    | climb => simp at same
    | enter _ proper => exact proper.1 same
    | follow _ proper => exact proper.1 same

/-- A path that does not go up leads nowhere if its parent is empty. -/
theorem Fresh.not_isDir {q : Path} {o : Location} (storable : d.IsStorable) (fresh : Fresh d q o)
    (parent : p.parent? = some q) (level : ".." ∉ p.names) : d.isDir p ≠ true := by
  intro isDir
  obtain ⟨l, located, -⟩ := (isDir_iff _).mp isDir
  obtain ⟨-, -, links, -, leads⟩ := leads_of_locate located
  rcases Path.parent?_names parent with empty | ⟨dots, name, rest, names, still, here⟩
  · exact ((locate_eq_ok_iff true q o).mp fresh.located).2.1 empty
  · rw [startOf, ← Path.parent?_isAbsolute parent, ← startOf, names] at leads
    refine fresh.leads storable dots name rest still here ?_ links leads
    rintro rfl
    exact level (by simp [names])

/-- Nothing is made where a directory is, and else a path that does not go up leads to a new
directory. -/
theorem fresh_of_makeDirsWithin (storable : d.IsStorable) (n : Nat) (level : ".." ∉ p.names)
    (done : makeDirsWithin n p d = (.ok (), d')) :
    d' = d ∧ (n = 0 ∨ d.isDir p = true) ∨ ∃ o, Fresh d' p o ∧ d.get? o = none := by
  induction n generalizing p d' with
  | zero =>
    cases done
    exact .inl ⟨rfl, .inl rfl⟩
  | succ n ih =>
    cases making_of_makeDirsWithin done with
    | one _ made => exact .inr (fresh_of_makeDir storable made)
    | stays _ isDir => exact .inl ⟨rfl, .inr (isDir rfl)⟩
    | last q parent mid _ above made =>
      have kept := made_of_makeDirsWithin n q d
      rw [above] at kept
      obtain ⟨o, fresh, absent⟩ := fresh_of_makeDir (kept.storable storable) made
      refine .inr ⟨o, fresh, ?_⟩
      by_contra there
      obtain ⟨e, found⟩ := Option.ne_none_iff_exists'.mp there
      rw [kept.kept o e found] at absent
      cases absent
    | reached q parent mid above _ isDir =>
      have kept := made_of_makeDirsWithin n q d
      rw [above] at kept
      have begins := Path.isPrefix_parent?_names parent
      rcases ih (fun up => level (begins.subset up)) above with ⟨rfl, -⟩ | ⟨o, fresh, -⟩
      · exact .inl ⟨rfl, .inr (isDir rfl)⟩
      · exact absurd (isDir rfl) (fresh.not_isDir (kept.storable storable) parent level)

/-- Directories that are made where none is are new and empty. -/
theorem fresh_of_makeDirs (storable : d.IsStorable) (nonempty : p.text ≠ "")
    (level : ".." ∉ p.names) (solid : d.isDir p = false) (done : makeDirs p d = (.ok (), d')) :
    ∃ o, Fresh d' p o ∧ d.get? o = none := by
  rcases fresh_of_makeDirsWithin storable _ level done with ⟨-, zero | isDir⟩ | fresh
  · exact absurd (List.eq_nil_of_length_eq_zero zero) (Path.components_ne_nil nonempty)
  · simp [solid] at isDir
  · exact fresh

/-- A directory that is made where its parent is there is new and empty. -/
theorem fresh_of_parentSpot (storable : d.IsStorable) (dir : Location) (name : String)
    (spotted : d.parentSpot p = .ok (dir, some name)) (solid : d.isDir p = false)
    (done : makeDirs p d = (.ok (), d')) : ∃ o, Fresh d' p o ∧ d.get? o = none := by
  cases found : d.get? (dir ++ [name]) with
  | none =>
    rw [makeDirs_of_free dir name spotted found] at done
    cases done
    apply fresh_of_makeDir storable
    simp [makeDir, spotted, found, bind, Except.bind]
  | some e =>
    have nonempty : p.text ≠ "" := ((parentSpot_eq_ok_iff dir name).mp spotted).2.1
    obtain ⟨n, length⟩ := Nat.exists_eq_succ_of_ne_zero
      (mt List.eq_nil_of_length_eq_zero (Path.components_ne_nil nonempty))
    have refused : d.makeDir p = .error .exists := by
      simp [makeDir, spotted, found, bind, Except.bind]
    simp only [makeDirs, length, makeDirsWithin, refused, solid] at done
    cases done

/-- A path that leads nowhere leads to something old, once the missing directories on its way are
made, only if it goes up through one of them. -/
theorem up_of_taken (storable : d.IsStorable) (nonempty : p.text ≠ "") (absent : d.isThere p = false)
    {l : Location} (done : makeDirs p d = (.ok (), d')) (located : d'.locate true p = .ok l)
    (old : d.get? l ≠ none) :
    ".." ∈ p.names ∧ ∀ dir name, d.parentSpot p ≠ .ok (dir, some name) := by
  have solid : d.isDir p = false := by
    by_contra isDir
    obtain ⟨k, before, directory⟩ := (isDir_iff p).mp (by simpa using isDir)
    have there := (isThere_iff p).mpr ⟨k, before, by rw [directory]; rfl⟩
    simp [absent] at there
  have taken : ¬∃ o, Fresh d' p o ∧ d.get? o = none := by
    rintro ⟨o, fresh, new⟩
    obtain rfl := Except.ok.inj (fresh.located.symm.trans located)
    exact old new
  constructor
  · by_contra level
    exact taken (fresh_of_makeDirs storable nonempty level solid done)
  · intro dir name spotted
    exact taken (fresh_of_parentSpot storable dir name spotted solid done)

/-- What was removed is no directory. -/
theorem isDir_of_removeTree (done : removeTree p d = (.ok (), d')) : d'.isDir p = false := by
  by_contra isDir
  rw [Bool.not_eq_false, isDir_iff] at isDir
  obtain ⟨t, after, directory⟩ := isDir
  unfold removeTree at done
  cases located : d.locate false p with
  | error fault =>
    rw [located] at done
    cases done
  | ok l =>
    cases found : d.get? l with
    | none =>
      simp only [located, found] at done
      cases done
    | some e =>
      simp only [located, found] at done
      cases e with
      | file => cases done
      | link target =>
        obtain ⟨l', e, located', there, solid, rfl⟩ :=
          removeFile_eq_ok ((Task.change_eq_ok_iff _).mp done)
        have below := ne_nil_of_get? e there solid
        have part := erase_isPartOf (d := d) l' below
        rcases locate_unfollowed_of_part part rfl after with same | ⟨k, target', same, link⟩
        · rw [located'] at same
          cases same
          simp [get?_erase _ below] at directory
        · rw [located'] at same
          cases same
          simp [get?_erase _ below] at link
      | directory =>
        obtain ⟨l', below, located', -, -, rfl⟩ :=
          removeDir_eq_ok ((Task.change_eq_ok_iff _).mp done)
        have before := locate_mono (erase_isPartOf l' below) rfl after
        rw [located'] at before
        cases before
        simp [get?_erase _ below] at directory

/-- A directory that its path names is empty before it is removed. -/
theorem fresh_of_removeTree {o : Location} (located : d.locate false p = .ok o)
    (real : ∀ target, d.get? o ≠ some (.link target)) (done : removeTree p d = (.ok (), d')) :
    o ≠ [] ∧ Fresh (d.eraseBelow o) p o ∧ d' = (d.eraseBelow o).erase o := by
  unfold removeTree at done
  cases found : d.get? o with
  | none =>
    simp only [located, found] at done
    cases done
  | some e =>
    cases e with
    | file =>
      simp only [located, found] at done
      cases done
    | link target => exact absurd found (real target)
    | directory =>
      simp only [located, found] at done
      obtain ⟨l, below, located', directory, empty, rfl⟩ :=
        removeDir_eq_ok ((Task.change_eq_ok_iff _).mp done)
      have before := locate_mono (Removed.eraseBelow o d).isPartOf rfl located'
      rcases locate_cases false located with followed | ⟨-, target, link⟩
      · obtain rfl : o = l := Except.ok.inj (followed.symm.trans before)
        exact ⟨below, ⟨located', directory, empty⟩, rfl⟩
      · exact absurd link (real target)

section

variable {o : Location} (fresh : Fresh d p o) (below : o ≠ []) (made : Made p (d.erase o) d')
include fresh below made

/-- Once an empty directory is removed, making directories on the way to its path makes none but
that one again, and the path leads nowhere else. -/
theorem Fresh.remade :
    (∀ k, k ≠ o → d'.get? k = d.get? k) ∧ ∀ o', d'.locate true p = .ok o' → o' = o := by
  -- with the directory back in its place, both disks are part of one
  have place : d'.get? o = none ∨ d'.get? o = some .directory := by
    by_cases there : (d'.get? o).isSome
    · exact .inr (made.made o (by rw [get?_erase _ below, if_pos rfl]) there).1
    · exact .inl (by simpa using there)
  have part : d.IsPartOf (d'.put o .directory) := by
    intro k e found
    refine ⟨e, ?_, .refl e⟩
    rw [get?_put _ _ below]
    split
    next here => rw [← found, here, fresh.directory]
    next apart => exact made.kept k e (by rw [get?_erase _ below, if_neg apart, found])
  have part' : d'.IsPartOf (d'.put o .directory) := by
    intro k e found
    refine ⟨e, ?_, .refl e⟩
    rw [get?_put _ _ below]
    split
    next here =>
      rw [← found, here]
      exact (place.resolve_left (by rw [← here, found]; simp)).symm
    next apart => exact found
  constructor
  · intro k apart
    have was : (d.erase o).get? k = d.get? k := by rw [get?_erase _ below, if_neg apart]
    cases found : d.get? k with
    | some e => exact made.kept k e (was.trans found)
    | none =>
      by_contra there
      obtain ⟨-, front, links, ⟨rest, names⟩, leads⟩ := made.made k (was.trans found)
        (Option.isSome_iff_ne_none.mpr there)
      -- the way to the directory goes on from there, so that something was there before
      obtain ⟨-, -, links', -, way⟩ := leads_of_locate fresh.located
      rw [← names] at way
      obtain ⟨mid, m, n, first, second, -⟩ := way.split _ front rest
      obtain ⟨-, rfl⟩ := (first.mono part).unique _ _ _ _ _ _ (leads.mono part')
      have directory := second.directory_of_end _ _ _ _ fresh.directory
      rw [found] at directory
      cases directory
  · intro o' located
    have before := locate_mono part made.workDir fresh.located
    have after := locate_mono part' rfl located
    exact Except.ok.inj (after.symm.trans before)

theorem Fresh.of_remade (isDir : d'.isDir p = true) : Fresh d' p o := by
  obtain ⟨same, unique⟩ := fresh.remade below made
  obtain ⟨o', located, directory⟩ := (isDir_iff p).mp isDir
  obtain rfl := unique o' located
  refine ⟨located, directory, ?_⟩
  apply List.eq_nil_iff_forall_not_mem.mpr
  intro name listed
  rw [mem_namesAt, same _ (by simp), ← mem_namesAt, fresh.empty] at listed
  cases listed

end

end Workbench.Disk
