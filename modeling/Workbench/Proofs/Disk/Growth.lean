import Workbench.Proofs.Disk.Listing
import Workbench.Proofs.Disk.Task
import Workbench.Proofs.Disk.Write

/-! What making directories, writing files and copying trees below a path can change. An entry that
was there stays as it is, unless a path below the given one leads to it afterwards. Whatever else a
single change below the path keeps is kept by all of them. -/
namespace Workbench.Disk

/-- A path at or below `out` leads to the location. -/
def Reaches (d : Disk) (out : Path) (l : Location) : Prop :=
  ∃ names : Location, names.IsProper ∧ d.locate true (out.under names) = .ok l

/-- What a disk becomes when directories are made and files are written at or below a path. -/
structure Grown (out : Path) (d d' : Disk) : Prop extends Extended d d' where
  kept : ∀ l e, d.get? l = some e → d'.get? l = some e ∨ d'.Reaches out l

/-- A storable disk grows, and no more. -/
def Grows (out : Path) (d d' : Disk) : Prop := d.IsStorable → Grown out d d'

variable {out : Path} {d d' : Disk}

theorem Grows.refl (d : Disk) : Grows out d d := fun storable =>
  ⟨.refl storable, fun _ _ => .inl⟩

theorem Grows.trans (d d' d'' : Disk) (first : Grows out d d') (second : Grows out d' d'') :
    Grows out d d'' := by
  intro storable
  have before := first storable
  have after := second before.storable
  refine ⟨before.toExtended.trans after.toExtended, fun l e found => ?_⟩
  rcases before.kept l e found with same | ⟨names, proper, located⟩
  · exact after.kept l e same
  · -- what was reached before is reached the same way after
    exact .inr ⟨names, proper, locate_mono after.part after.workDir located⟩

/-- A relation that no directory made and no file written below a path breaks. Disks that are not
storable do not matter to it. -/
structure IsKeptBelow (out : Path) (R : Disk → Disk → Prop) : Prop where
  refl : ∀ d, R d d
  trans : ∀ d d' d'', R d d' → R d' d'' → R d d''
  storable : ∀ d d', (d.IsStorable → R d d') → R d d'
  made : ∀ (names : Location) d d', names.IsProper → Made (out.under names) d d' → R d d'
  written : ∀ (names : Location) l d d', names.IsProper → names ≠ [] →
    Written d (out.under names) l d' → R d d'

theorem Grows.isKeptBelow : IsKeptBelow out (Grows out) where
  refl := Grows.refl
  trans := Grows.trans
  storable d d' grows := fun storable => grows storable storable
  made names d d' _ made := fun storable =>
    ⟨made.extended storable, fun l e found => .inl (made.kept l e found)⟩
  written names l d d' proper _ written := by
    refine fun storable => ⟨written.extended storable, fun k e found => ?_⟩
    by_cases here : k = l
    · exact .inr ⟨names, proper, here ▸ written.located⟩
    · exact .inl (by rw [written.same k here, found])

theorem made_of_makeDirsAt (p : Path) (d : Disk) : Made p d (makeDirsAt p d).2 := by
  rw [makeDirsAt, Task.mapError_snd]
  exact made_of_makeDirs p d

theorem made_of_makeParent (p : Path) (d : Disk) : Made p d (makeParent p d).2 := by
  cases above : p.parent? with
  | none =>
    simp only [makeParent, above]
    exact .refl p d
  | some q =>
    simp only [makeParent, above]
    exact (made_of_makeDirsAt q d).of_parent q above

section

variable {R : Disk → Disk → Prop} (kept : IsKeptBelow out R)
include kept

theorem makeDirsAt_keeps (names : Location) (proper : names.IsProper) :
    Keeps R (makeDirsAt (out.under names)) := fun d =>
  kept.made names d _ proper (made_of_makeDirsAt _ d)

theorem writeText_keeps (names : Location) (proper : names.IsProper) (nonempty : names ≠ [])
    (text : String) : Keeps R (writeText (out.under names) text) := by
  refine Task.Keeps.mapError _ _ fun d => ?_
  rcases Task.change_snd (writeBytes · (out.under names) text.toUTF8) d with same | wrote
  · rw [same]
    exact kept.refl d
  · obtain ⟨l, written, -⟩ := writeBytes_eq_ok _ wrote
    exact kept.written names l d _ proper nonempty written

theorem copyEntry_keeps (source : Path) (names : Location) (proper : names.IsProper)
    (nonempty : names ≠ []) : Keeps R (copyEntry source (out.under names)) := by
  apply Keeps.bind kept.trans
  · exact fun d => kept.made names d _ proper (made_of_makeParent _ d)
  · refine fun _ => Task.Keeps.mapError _ _ fun d => ?_
    rcases Task.change_snd (copyFile · source (out.under names)) d with same | copied
    · rw [same]
      exact kept.refl d
    · obtain ⟨_, _, _, l, _, -, -, written, -⟩ := copyFile_eq_ok _ _ copied
      exact kept.written names l d _ proper nonempty written

theorem checkLength_keeps (p : Path) : Keeps R (checkLength p) := by
  unfold checkLength
  split
  · exact Keeps.throw kept.refl _
  · exact Keeps.pure kept.refl ()

/-- Copying a list of entries keeps what copying a directory keeps. -/
theorem copyListed_keeps (skip : Option String) (levels : Nat)
    (inner : ∀ dir source (names : Location), names.IsProper →
      Keeps R (copyInto skip levels dir source (out.under names)))
    (dir : Location) (source : Path) (names : Location) (proper : names.IsProper)
    (listed : List (String × Entry)) (named : ∀ entry ∈ listed, IsName entry.1) :
    Keeps R (copyListed skip levels dir source (out.under names) listed) := by
  induction listed with
  | nil =>
    rw [copyListed]
    exact Keeps.pure kept.refl 0
  | cons entry rest ih =>
    obtain ⟨name, entry⟩ := entry
    have below : Location.IsProper (names ++ [name]) := by
      intro n member
      rcases List.mem_append.mp member with earlier | last
      · exact proper n earlier
      · rw [List.mem_singleton.mp last]
        exact named _ List.mem_cons_self
    have later := fun here : Nat => Keeps.bind kept.trans _ (fun there => pure (here + there))
      (ih fun entry member => named entry (List.mem_cons_of_mem _ member))
      fun there => Keeps.pure kept.refl (here + there)
    rw [copyListed, ← Path.under_concat]
    split
    · exact Keeps.bind kept.trans _ _ (inner _ _ _ below) later
    · split
      · exact Keeps.bind kept.trans _ _ (Keeps.pure kept.refl 0) later
      · refine Keeps.bind kept.trans _ _ ?_ fun _ => Keeps.bind kept.trans _ _
          (copyEntry_keeps kept _ _ below (by simp)) fun _ => Keeps.bind kept.trans _ _
            (Keeps.pure kept.refl 1) later
        exact checkLength_keeps kept _

/-- What a directory lists is read before its copy is made, and has the names of entries. -/
theorem copyInto_keeps_of_listed (skip : Option String) (levels : Nat) (dir : Location)
    (source : Path) (names : Location) (proper : names.IsProper)
    (later : ∀ listed : List (String × Entry), (∀ entry ∈ listed, IsName entry.1) →
      Keeps R (match levels with
        | 0 => throw (.io (out.under names) .nameTooLong)
        | levels + 1 => copyListed skip levels dir source (out.under names) listed)) :
    Keeps R (copyInto skip levels dir source (out.under names)) := by
  intro d
  apply kept.storable
  intro storable
  rw [copyInto, bind_apply]
  refine Keeps.bind kept.trans _ _ (checkLength_keeps kept _) (fun _ => Keeps.bind kept.trans _ _
    (makeDirsAt_keeps kept names proper) fun _ => later _ ?_) d
  exact named_of_snapshot storable.toIsTree dir

theorem copyInto_keeps (skip : Option String) (levels : Nat) (dir : Location) (source : Path)
    (names : Location) (proper : names.IsProper) :
    Keeps R (copyInto skip levels dir source (out.under names)) := by
  induction levels generalizing dir source names with
  | zero =>
    exact copyInto_keeps_of_listed kept skip 0 dir source names proper
      fun _ _ => Keeps.throw kept.refl _
  | succ levels ih =>
    exact copyInto_keeps_of_listed kept skip (levels + 1) dir source names proper
      fun listed named => copyListed_keeps kept skip levels ih dir source names proper listed named

/-- A copy of a tree writes below its target only. -/
theorem copyTree_keeps (source : Path) (skip : Option String) :
    Keeps R (copyTree source out skip) := by
  have copied (l : Location) : Keeps R (do
      copyListed skip pathLimit l source out (← Task.look (snapshot · l))) := by
    intro d
    apply kept.storable
    intro storable
    rw [bind_apply]
    exact copyListed_keeps kept skip pathLimit (copyInto_keeps kept skip pathLimit) l source []
      (fun _ listed => by cases listed) _ (named_of_snapshot storable.toIsTree l) d
  have traced (follow : Bool) : Keeps R
      (Task.mapError (fun reason => Error.io source (.walking source reason))
        (Task.ask (locate · follow source))) :=
    Task.Keeps.mapError _ _ (Task.Keeps.ask kept.refl _)
  unfold copyTree
  refine Keeps.bind kept.trans _ _ (traced false) fun l =>
    Keeps.bind kept.trans _ _ (Task.Keeps.look kept.refl _) fun found => ?_
  split
  · exact copied l
  · refine Keeps.bind kept.trans _ _ (traced true) fun l =>
      Keeps.bind kept.trans _ _ (Task.Keeps.look kept.refl _) fun isDir => ?_
    split
    · exact copied l
    · exact Keeps.pure kept.refl 0
  · exact Keeps.pure kept.refl 0

end

end Workbench.Disk
