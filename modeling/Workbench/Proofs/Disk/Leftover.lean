import Workbench.Proofs.Disk.Atomicity

/-!
# What a replacement leaves beside the file

A replacement that fails is not undone. If the temporary file was made and cannot be given the name
of the file, it stays.
-/
namespace Workbench.Disk

variable {d d' : Disk} {p : Path} {t : Location} {bytes : ByteArray}

/-- Whether a file can get the name that a path ends with. No directory is asked for, and none is
there. -/
def IsReplaceable (d : Disk) (p : Path) : Prop :=
  p.endsInSlash = false ∧ ∃ l, d.named? p = some l ∧ d.get? l ≠ some .directory

/-- A temporary file is not opened where a directory is. -/
theorem exists_error_of_directory (named : d.named? p.temporary = some t)
    (directory : d.get? t = some .directory) :
    ∃ fault, d.openForWriting true p.temporary = .error fault := by
  cases opened : d.openForWriting true p.temporary with
  | error fault => exact ⟨fault, rfl⟩
  | ok result =>
    have unlinked (k : Location) (target : Path) (other : d.named? p.temporary = some k) :
        d.get? k ≠ some (.link target) := by
      rw [named] at other
      cases other
      simp [directory]
    have here := named?_of_opened opened unlinked
    rw [named] at here
    cases here
    rcases (written_of_opened true opened).before with absent | ⟨_, _, file⟩
    · simp [directory] at absent
    · simp [directory] at file

/-- A temporary file that is new gets the name of the file if there can be a file, and then it is
gone. -/
theorem rename_temporary_cases (named : d.named? p.temporary = some t)
    (written : Written d p.temporary t d') (runnable : Bool)
    (file : d'.get? t = some (.file bytes runnable)) :
    ¬d.IsReplaceable p ∧ (∃ fault, d'.rename p.temporary p = .error fault) ∨
      d.IsReplaceable p ∧ ∃ last, d'.rename p.temporary p = .ok last ∧ last.get? t = none := by
  cases place : d.named? p with
  | none =>
    refine .inl ⟨fun ⟨_, l, free, _⟩ => by simp [place] at free, ?_⟩
    cases renamed : d'.rename p.temporary p with
    | error fault => exact ⟨fault, rfl⟩
    | ok last =>
      obtain ⟨_, _, dir, name, _, -, spotted, -⟩ := rename_eq_ok _ _ renamed
      have named := (named?_eq_some_iff p _).mpr
        ⟨dir, name, (written.parentSpot_iff p dir name).mp spotted, rfl⟩
      simp [place] at named
  | some l =>
    obtain ⟨dir, name, spotted, rfl⟩ := (named?_eq_some_iff p l).mp place
    obtain ⟨rfl, short⟩ := eq_of_named?_temporary spotted named
    have other := Path.temporaryName_ne name
    have apart : dir ++ [name] ≠ dir ++ [Path.temporaryName name] := by simpa using other.symm
    have old := (written.parentSpot_iff _ _ _).mpr (parentSpot_temporary spotted short)
    have new := (written.parentSpot_iff _ _ _).mpr spotted
    rcases rename_temporary p.temporary p _ other old p.endsInSlash_temporary new bytes runnable file
      with ⟨fault, failed, why⟩ | ⟨solid, renamed⟩
    · rw [written.same _ apart] at why
      refine .inl ⟨fun ⟨level, l, free, solid⟩ => ?_, fault, failed⟩
      rw [place] at free
      cases free
      rcases why with closed | directory
      · simp [closed] at level
      · exact solid directory
    · rw [written.same _ apart] at solid
      obtain ⟨_, _, _, _, e, old', -, found, moved⟩ := rename_eq_ok _ _ renamed
      rw [old] at old'
      cases old'
      rw [file] at found
      cases found
      refine .inr ⟨⟨(moved (by simp)).1, _, place, solid⟩, _, renamed, ?_⟩
      rw [get?_put _ _ (by simp), if_neg apart.symm, get?_erase _ (by simp), if_pos rfl]

/-- What stands under a temporary name that was free, once a replacement is over. A directory was
made there on the way to the file, or the file was made and could not be renamed, or nothing. -/
theorem get?_sibling_cases (bytes : ByteArray) (beside : d.sibling? p = some t)
    (absent : d.get? t = none) :
    (d.withParents p).get? t = some .directory ∧
        (replace p bytes d).2.get? t = some .directory ∧ (replace p bytes d).1 ≠ .ok () ∨
      (d.withParents p).get? t = none ∧
        ((d.CanReach p ∧ ¬(d.withParents p).IsReplaceable p) ∧
            (replace p bytes d).2.get? t = some (.file bytes false) ∧
            (replace p bytes d).1 ≠ .ok () ∨
          (d.CanReach p → (d.withParents p).IsReplaceable p) ∧
            (replace p bytes d).2.get? t = none) := by
  obtain ⟨dir, temp, spotted, rfl⟩ := (named?_eq_some_iff p.temporary t).mp beside
  set mid := d.withParents p with reached
  cases there : mid.get? (dir ++ [temp]) with
  | some e =>
    -- what was made on the way stands in the way of the temporary file
    have directory : mid.get? (dir ++ [temp]) = some .directory :=
      ((made_withParents p d).made _ absent (by simp [← reached, there])).1
    rw [there] at directory
    cases directory
    refine .inl ⟨rfl, ?_⟩
    rcases replace_cases_reach p bytes d with ⟨-, e, failed⟩ | ⟨-, goes⟩
    · rw [failed]
      exact ⟨there, by simp⟩
    · obtain ⟨fault, failed⟩ := exists_error_of_directory beside there
      rw [goes, ← reached, runAll_cons, WriteStep.run, Task.change, failed]
      exact ⟨there, by simp [Except.map]⟩
  | none =>
    refine .inr ⟨rfl, ?_⟩
    rcases replace_cases_reach p bytes d with ⟨unreached, e, failed⟩ | ⟨reach, goes⟩
    · rw [failed]
      exact .inr ⟨fun reach => absurd reach unreached, there⟩
    · have opened := openForWriting_of_free true p.endsInSlash_temporary spotted there
      obtain ⟨written, last⟩ := runAll_of_opened false opened p bytes
      rw [goes, ← reached, last, runAll_cons, WriteStep.run, Task.change]
      have file : (mid.put (dir ++ [temp]) (.file bytes false)).get? (dir ++ [temp]) =
          some (.file bytes false) := by
        rw [get?_put _ _ (by simp), if_pos rfl]
      rcases rename_temporary_cases beside written false file with
        ⟨blocked, fault, failed⟩ | ⟨replaceable, _, renamed, gone⟩
      · rw [failed]
        exact .inl ⟨⟨reach, blocked⟩, file, by simp⟩
      · rw [renamed]
        exact .inr ⟨fun _ => replaceable, gone⟩

/-- A temporary name that was free is taken once a replacement is over. -/
def LeavesTemporary (d : Disk) (p : Path) (bytes : ByteArray) : Prop :=
  ∃ t, d.sibling? p = some t ∧ d.get? t = none ∧ ((replace p bytes d).2.get? t).isSome = true

/-- A replacement that goes through leaves no temporary file. One that fails leaves it exactly if it
was made and there can be no file under the name that the path ends with; a directory of that name
may have been made on the way. -/
theorem leavesTemporary_iff (d : Disk) (p : Path) (bytes : ByteArray) :
    ((replace p bytes d).1 = .ok () → ¬d.LeavesTemporary p bytes) ∧
    (d.LeavesTemporary p bytes ↔ ∃ t, d.sibling? p = some t ∧ d.get? t = none ∧
      ((d.withParents p).get? t = some .directory ∨
        (d.withParents p).get? t = none ∧ d.CanReach p ∧ ¬(d.withParents p).IsReplaceable p)) := by
  refine ⟨fun done ⟨t, beside, absent, left⟩ => ?_, ?_, ?_⟩
  · rcases get?_sibling_cases bytes beside absent with
      ⟨-, -, failed⟩ | ⟨-, ⟨-, -, failed⟩ | ⟨-, gone⟩⟩
    · exact failed done
    · exact failed done
    · simp [gone] at left
  · rintro ⟨t, beside, absent, left⟩
    refine ⟨t, beside, absent, ?_⟩
    rcases get?_sibling_cases bytes beside absent with
      ⟨directory, -, -⟩ | ⟨free, ⟨⟨reach, blocked⟩, -, -⟩ | ⟨-, gone⟩⟩
    · exact .inl directory
    · exact .inr ⟨free, reach, blocked⟩
    · simp [gone] at left
  · rintro ⟨t, beside, absent, why⟩
    refine ⟨t, beside, absent, ?_⟩
    rcases get?_sibling_cases bytes beside absent with
      ⟨-, left, -⟩ | ⟨free, ⟨-, left, -⟩ | ⟨replaceable, -⟩⟩
    · simp [left]
    · simp [left]
    · rcases why with directory | ⟨-, reach, blocked⟩
      · simp [free] at directory
      · exact absurd (replaceable reach) blocked

/-- A directory that has the name of the file. -/
def housed : Disk := ⟨[(["p"], .directory), (["p", "x"], .directory)], []⟩

/-- The directory stays, and so does what was to take its place. -/
theorem housed_keeps_temporary : housed.LeavesTemporary ⟨"p/x"⟩ "new".toUTF8 ∧
    (replace ⟨"p/x"⟩ "new".toUTF8 housed).2.readBytes ⟨"p/.x.tmp"⟩ = .ok "new".toUTF8 := by
  refine ⟨(leavesTemporary_iff housed ⟨"p/x"⟩ _).2.mpr ⟨["p", ".x.tmp"], by decide +kernel,
    by decide +kernel, .inr ⟨by decide +kernel, fun q parent => ?_, fun blocked => ?_⟩⟩,
    by decide +kernel⟩
  · have above : (Path.mk "p/x").parent? = some ⟨"p"⟩ := by decide +kernel
    rw [above] at parent
    cases parent
    obtain ⟨⟨⟩, made⟩ := exists_eq_ok_of_isOk (makeDirs ⟨"p"⟩) housed (by decide +kernel)
    rw [made]
  · obtain ⟨-, l, named, solid⟩ := blocked
    have place : (housed.withParents ⟨"p/x"⟩).named? ⟨"p/x"⟩ = some ["p", "x"] := by decide +kernel
    rw [place] at named
    cases named
    exact solid (by decide +kernel)

end Workbench.Disk
