import Workbench.Proofs.Disk.Aim
import Workbench.Proofs.Disk.Interrupt
import Workbench.Proofs.Disk.Place

/-!
# Replacing is all or nothing

The temporary file for a path is opened and filled under its own name, and nothing else is touched
until it takes the place of the file. The place is the entry that the path names. A path that goes
through this very entry, by a link, leads nowhere once the link has been replaced.
-/
namespace Workbench.Disk

open WriteStep
open Workbench.Path (temporaryName)

variable {d d' mid : Disk} {p : Path} {l t : Location} {bytes : ByteArray}

/-- A replacement has not taken place. Directories were made on the way to the path, and at most its
temporary file has changed besides; what the path leads to is what it was. -/
structure Pending (p : Path) (d d' : Disk) : Prop where
  spared : ∃ mid, Made p d mid ∧ ∀ k, d.sibling? p ≠ some k → d'.get? k = mid.get? k
  kept : ∀ l, d.sibling? p ≠ some l → d.locate true p = .ok l →
    d'.locate true p = .ok l ∧ d'.get? l = d.get? l
  read : ∀ l content runnable, d.sibling? p ≠ some l → d'.locate true p = .ok l →
    d'.get? l = some (.file content runnable) → d.get? l = some (.file content runnable)

/-- A replacement has taken place. The entry that the path names is a file with the bytes, and the
temporary file is gone; but for these two, only directories were made on the way to the path. -/
structure Renewed (p : Path) (bytes : ByteArray) (d d' : Disk) : Prop where
  placed : ∃ l runnable, d.place? p = some l ∧ d'.get? l = some (.file bytes runnable)
  gone : ∃ t, d.sibling? p = some t ∧ d'.get? t = none
  spared : ∃ mid, Made p d mid ∧
    ∀ k, d.place? p ≠ some k → d.sibling? p ≠ some k → d'.get? k = mid.get? k
  read : ∀ content, d'.readBytes p = .ok content ↔ content = bytes ∧ d.IsApart p bytes

/-- No link has the name of the temporary file. -/
def IsUnlinkedBeside (d : Disk) (p : Path) : Prop :=
  ∀ t target, d.sibling? p = some t → d.get? t ≠ some (.link target)

instance (d : Disk) (p : Path) : Decidable (d.IsUnlinkedBeside p) :=
  decidable_of_iff (((d.sibling? p).bind d.get?).all fun e => !e matches .link _) <| by
    unfold IsUnlinkedBeside
    cases d.sibling? p with
    | none => simp
    | some t => rcases found : d.get? t with _ | _ | _ | target <;> grind

/-- The temporary file is opened at the entry that its path names, if that is no link. -/
theorem named?_of_opened (opened : d.openForWriting true p.temporary = .ok (l, d'))
    (unlinked : ∀ k target, d.named? p.temporary = some k → d.get? k ≠ some (.link target)) :
    d.named? p.temporary = some l := by
  have written := written_of_opened true opened
  obtain ⟨clean, nonempty, links, within, leads⟩ := leads_of_locate written.located
  obtain ⟨front, name, names⟩ := p.exists_temporary_names
  obtain ⟨here, up⟩ := temporaryName_ne_dots name
  generalize temporaryName name = last at names here up
  rw [names] at leads
  obtain ⟨dir, m, k, upper, lower, rfl⟩ := leads.split _ front [last]
  -- the way to the directory is the same before and after
  obtain ⟨upper, directory⟩ := written.leads_directory _ _ _ _ upper lower.directory_of_cons
  rw [startOf, written.workDir, ← startOf] at upper
  have named (proper : IsStep last) : d.named? p.temporary = some (dir ++ [last]) :=
    (named?_eq_some_iff _ _).mpr ⟨dir, _, (parentSpot_eq_ok_iff _ _).mpr
      ⟨clean, nonempty, directory, proper, front, names, m, by omega, upper⟩, rfl⟩
  cases lower with
  | stay => exact absurd rfl here
  | climb => exact absurd rfl up
  | enter _ proper _ _ tail =>
    cases tail
    exact named proper
  | follow _ proper link =>
    exact absurd (written.link _ _ link) (unlinked _ _ (named proper))

/-- More bytes go to the file that was written. -/
theorem Written.appended (written : Written d p l mid)
    (appended : appendTo p bytes mid = .ok d') : Written d p l d' := by
  obtain ⟨content, runnable, file⟩ := written.file
  have same : mid.put l (.file (content ++ bytes) runnable) = d' := by
    simpa [appendTo, written.located, bind, Except.bind, pure, Except.pure, appendAt, file]
      using appended
  exact same ▸ written.refill (content ++ bytes) runnable

namespace Pending

theorem of_made (storable : d.IsStorable) (made : Made p d d') : Pending p d d' := by
  refine ⟨⟨d', made, fun _ _ => rfl⟩, fun l _ located => ?_, fun l _ _ _ _ file => made.get?_of_solid file (by simp)⟩
  obtain ⟨e, found, -⟩ := locate_plain storable.toIsTree p l located
  exact ⟨locate_mono made.isPartOf made.workDir located, by rw [made.kept l e found, found]⟩

theorem of_written (storable : d.IsStorable) (beside : d.sibling? p = some t)
    (written : Written (d.withParents p) p.temporary t d') : Pending p d d' := by
  have made := made_withParents p d
  have same (k : Location) (other : d.sibling? p ≠ some k) :
      d'.get? k = (d.withParents p).get? k :=
    written.same k fun here => other (here ▸ beside)
  refine ⟨⟨_, made, same⟩, fun l other located => ?_, fun l content runnable other _ file => ?_⟩
  · obtain ⟨located, kept⟩ := (of_made storable made).kept l other located
    exact ⟨locate_mono written.isPartOf written.workDir located, by rw [same l other, kept]⟩
  · rw [same l other] at file
    exact made.get?_of_solid file (by simp)

/-- Broken off anywhere, a replacement has not taken place. -/
theorem of_breaksOff (storable : d.IsStorable) (unlinked : d.IsUnlinkedBeside p)
    (broken : BreaksOff (replaceSteps p bytes) d d') : Pending p d d' := by
  have made := made_withParents p d
  have opens {l : Location} {mid : Disk}
      (opened : (d.withParents p).openForWriting true p.temporary = .ok (l, mid)) :
      d.sibling? p = some l :=
    named?_of_opened opened fun k target named link =>
      unlinked k target named (made.link k target link)
  -- once the directories are there, the temporary file is opened and filled
  have later (broken : BreaksOff [.openEmpty p.temporary, .append p.temporary bytes,
      .settle p.temporary, .rename p.temporary p] (d.withParents p) d') : Pending p d d' := by
    rcases (breaksOff_cons_iff _ _).mp broken with (rfl | opened) | ⟨empty, opened, broken⟩
    · exact of_made storable made
    · obtain ⟨t, opened⟩ := (map_snd_eq_ok_iff _ _).mp opened
      exact of_written storable (opens opened) (written_of_opened true opened)
    · rw [run, Task.change_eq_ok_iff] at opened
      obtain ⟨t, opened⟩ := (map_snd_eq_ok_iff _ _).mp opened
      have beside := opens opened
      have emptied := written_of_opened true opened
      rcases (breaksOff_cons_iff _ _).mp broken with (rfl | ⟨count, part⟩) | ⟨full, filled, broken⟩
      · exact of_written storable beside emptied
      · exact of_written storable beside (emptied.appended part)
      · rw [run, Task.change_eq_ok_iff] at filled
        have written := of_written storable beside (emptied.appended filled)
        -- waiting changes nothing, and the renaming has not happened
        rcases (breaksOff_cons_iff _ _).mp broken with rfl | ⟨_, same, broken⟩
        · exact written
        · cases same
          rcases (breaksOff_cons_iff _ _).mp broken with rfl | ⟨_, -, ended⟩
          · exact written
          · cases ended
  cases parent : p.parent? with
  | none =>
    rw [replaceSteps, parent] at broken
    rw [withParents, parent] at later
    exact later broken
  | some q =>
    rw [replaceSteps, parent] at broken
    rcases (breaksOff_cons_iff _ _).mp broken with making | ⟨mid, ran, broken⟩
    · exact of_made storable ((made_of_makes making).of_parent q parent)
    · have reached : d.withParents p = mid := by
        rw [withParents, parent]
        exact congrArg Prod.snd ran
      rw [reached] at later
      exact later broken

end Pending

/-- Whether the directories on the way to a path can be made. -/
def CanReach (d : Disk) (p : Path) : Prop := ∀ q, p.parent? = some q → (makeDirs q d).1 = .ok ()

/-- A replacement ends with the directories on the way, or goes on once they are there. -/
theorem replace_cases_reach (p : Path) (bytes : ByteArray) (d : Disk) :
    (¬d.CanReach p ∧ ∃ e, replace p bytes d = (.error e, d.withParents p)) ∨
      d.CanReach p ∧ replace p bytes d = WriteStep.runAll [.openEmpty p.temporary,
        .append p.temporary bytes, .settle p.temporary, .rename p.temporary p] (d.withParents p) := by
  cases parent : p.parent? with
  | none =>
    have reached : d.withParents p = d := by rw [withParents, parent]
    refine .inr ⟨fun _ above => by simp [parent] at above, ?_⟩
    rw [replace, replaceSteps, parent, reached]
    rfl
  | some q =>
    have reached : d.withParents p = (makeDirs q d).2 := by rw [withParents, parent]
    have reach : d.CanReach p ↔ (makeDirs q d).1 = .ok () := by simp [CanReach, parent]
    rw [replace_of_parent parent, reached, reach]
    rcases makeDirs q d with ⟨fault | ⟨⟩, mid⟩
    · exact .inl ⟨by simp, _, rfl⟩
    · exact .inr ⟨rfl, rfl⟩

/-- A replacement goes through if the temporary file can be opened, filled and renamed. -/
theorem exists_filled (done : replace p bytes d = (.ok (), d')) :
    ∃ t filled, Written (d.withParents p) p.temporary t filled ∧
      filled.rename p.temporary p = .ok d' := by
  rcases replace_cases_reach p bytes d with ⟨-, e, failed⟩ | ⟨-, goes⟩
  · rw [failed] at done
    cases done
  · rw [goes] at done
    obtain ⟨empty, opened, done⟩ := (runAll_cons_iff _ _ _ _).mp done
    obtain ⟨full, filled, done⟩ := (runAll_cons_iff _ _ _ _).mp done
    obtain ⟨_, same, done⟩ := (runAll_cons_iff _ _ _ _).mp done
    obtain ⟨_, renamed, ended⟩ := (runAll_cons_iff _ _ _ _).mp done
    cases same
    cases ended
    simp only [run, Task.change_eq_ok_iff] at opened filled renamed
    obtain ⟨t, opened⟩ := (map_snd_eq_ok_iff _ _).mp opened
    exact ⟨t, full, (written_of_opened true opened).appended filled, renamed⟩

/-- The temporary file lies beside the file, if its name is not too long. -/
theorem sibling?_of_spotted {dir : Location} {name : String}
    (spotted : (d.withParents p).parentSpot p = .ok (dir, some name))
    (short : (temporaryName name).utf8ByteSize ≤ nameLimit) :
    d.sibling? p = some (dir ++ [temporaryName name]) :=
  (named?_eq_some_iff _ _).mpr ⟨dir, _, parentSpot_temporary spotted short, rfl⟩

/-- A replacement that goes through has taken place. -/
theorem Renewed.of_done (storable : d.IsStorable) (unlinked : d.IsUnlinkedBeside p)
    (done : replace p bytes d = (.ok (), d')) : Renewed p bytes d d' := by
  have made := made_withParents p d
  obtain ⟨t, filled, written, renamed⟩ := exists_filled done
  obtain ⟨_, _, dir, name, _, -, spotted, -⟩ := rename_eq_ok _ _ renamed
  have spotted := (written.parentSpot_iff p dir name).mp spotted
  have unlinked' : ∀ target, (d.withParents p).get? (dir ++ [temporaryName name]) ≠
      some (.link target) := by
    intro target link
    have named := (made.storable storable).isName dir (temporaryName name) (by simp [link])
    exact unlinked _ target (sibling?_of_spotted spotted named.short) (made.link _ target link)
  -- with the directories there, the replacement is one in the directory of the file
  have inside : replace p bytes (d.withParents p) = (.ok (), d') := by
    obtain ⟨q, parent, -⟩ := makeDirs_parent spotted
    rcases replace_cases_reach p bytes d with ⟨-, e, failed⟩ | ⟨reach, -⟩
    · rw [failed] at done
      cases done
    · have ran : makeDirs q d = (.ok (), d.withParents p) := by
        rw [withParents, parent]
        exact Prod.ext (reach q parent) rfl
      rw [← replace_of_makeDirs spotted q parent ran bytes, done]
  rcases replace_cases spotted unlinked' bytes with
    ⟨e, failed⟩ | ⟨short, -, runnable, ⟨e, failed, -⟩ | ⟨-, replaced⟩⟩
  · rw [failed] at inside
    cases inside
  · rw [failed] at inside
    cases inside
  · rw [replaced] at inside
    cases inside
    have placed : d.place? p = some (dir ++ [name]) :=
      (named?_eq_some_iff p _).mpr ⟨dir, name, spotted, rfl⟩
    have beside := sibling?_of_spotted spotted short
    have apart : dir ++ [temporaryName name] ≠ dir ++ [name] := by
      simpa using Path.temporaryName_ne name
    refine ⟨⟨_, runnable, placed, ?_⟩, ⟨_, beside, ?_⟩, ⟨_, made, fun k first second => ?_⟩,
      readBytes_replace_iff bytes done⟩
    · rw [get?_swapped, if_pos rfl]
    · rw [get?_swapped, if_neg apart, if_pos rfl]
    · have other : k ≠ dir ++ [name] := fun here => first (by rw [here, placed])
      have away : k ≠ dir ++ [temporaryName name] := fun here => second (by rw [here, beside])
      rw [get?_swapped, if_neg other, if_neg away]

/-- Wherever a replacement is broken off, by a fault or for good, all but its temporary file is as it
was, directories on the way apart, and what is read by the path is what was read there before. One
that goes through leaves the bytes at the entry that the path names, and nothing but directories
besides. They are read by the path unless the temporary file was reached through that entry. -/
theorem replace_atomic (storable : d.IsStorable) (p : Path) (bytes : ByteArray)
    (unlinked : d.IsUnlinkedBeside p) :
    (∀ l, d.place? p = some l → d.sibling? p ≠ some l) ∧
    (∀ d', BreaksOff (replaceSteps p bytes) d d' → Pending p d d') ∧
    (∀ front rest d', replaceSteps p bytes = front ++ rest → runAll front d = (.ok (), d') →
      rest ≠ [] ∧ Pending p d d' ∨ rest = [] ∧ Renewed p bytes d d') ∧
    (∀ e d', replace p bytes d = (.error e, d') → Pending p d d') ∧
    ∀ d', replace p bytes d = (.ok (), d') → Renewed p bytes d d' := by
  have pending {d' : Disk} (broken : BreaksOff (replaceSteps p bytes) d d') : Pending p d d' :=
    .of_breaksOff storable unlinked broken
  refine ⟨fun l => sibling?_ne_place?, fun d' => pending, fun front rest d' split ran => ?_,
    fun e d' failed => pending (breaksOff_of_error e failed),
    fun d' => .of_done storable unlinked⟩
  by_cases last : rest = []
  · subst last
    rw [List.append_nil] at split
    rw [← split] at ran
    exact .inr ⟨rfl, .of_done storable unlinked ran⟩
  · exact .inl ⟨last, pending (split ▸ breaksOff_of_front front rest last ran)⟩

/-- A file with a temporary file beside it that was left behind. -/
def halfway : Disk where
  entries := [(["a"], .directory), (["a", "c"], .file "old".toUTF8 true),
    (["a", ".c.tmp"], .file "half".toUTF8 false)]
  workDir := []

/-- It is replaced by a path through a directory that is not there yet. -/
theorem halfway_replaced : halfway.IsStorable ∧ halfway.IsUnlinkedBeside ⟨"a/b/../c"⟩ ∧
    (∀ d', BreaksOff (replaceSteps ⟨"a/b/../c"⟩ "new".toUTF8) halfway d' →
      Pending ⟨"a/b/../c"⟩ halfway d') ∧
    ∃ d', replace ⟨"a/b/../c"⟩ "new".toUTF8 halfway = (.ok (), d') ∧
      Renewed ⟨"a/b/../c"⟩ "new".toUTF8 halfway d' ∧
      d'.readBytes ⟨"a/b/../c"⟩ = .ok "new".toUTF8 := by
  have storable : halfway.IsStorable := .of_listed (by decide) (by decide)
  have unlinked : halfway.IsUnlinkedBeside ⟨"a/b/../c"⟩ := by decide +kernel
  obtain ⟨-, pending, -, -, renewed⟩ :=
    replace_atomic storable ⟨"a/b/../c"⟩ "new".toUTF8 unlinked
  obtain ⟨⟨⟩, replaced⟩ :=
    exists_eq_ok_of_isOk (replace ⟨"a/b/../c"⟩ "new".toUTF8) halfway (by decide +kernel)
  have taken := renewed _ replaced
  exact ⟨storable, unlinked, pending, _, replaced, taken,
    (taken.read _).mpr ⟨rfl, by decide +kernel⟩⟩

/-- A link to its own directory. -/
def ringed : Disk where
  entries := [(["a"], .directory), (["a", "x"], .link ⟨"."⟩)]
  workDir := []

/-- A link to the file that has its own temporary name. -/
def leaning : Disk where
  entries := [(["x"], .link ⟨".x.tmp"⟩), ([".x.tmp"], .file "old".toUTF8 false)]
  workDir := []

/-- What was written is not read by a path through the entry that it replaced, and a path to its own
temporary file may be left with neither the old content nor the new. -/
theorem replace_not_atomic :
    (ringed.IsStorable ∧ ringed.IsUnlinkedBeside ⟨"a/x/x"⟩ ∧
      ∃ d', replace ⟨"a/x/x"⟩ "new".toUTF8 ringed = (.ok (), d') ∧
        d'.readBytes ⟨"a/x/x"⟩ = .error .notDirectory) ∧
    (leaning.IsStorable ∧ leaning.IsUnlinkedBeside ⟨"x"⟩ ∧
      leaning.readBytes ⟨"x"⟩ = .ok "old".toUTF8 ∧
      ∃ d', BreaksOff (replaceSteps ⟨"x"⟩ "new".toUTF8) leaning d' ∧
        d'.readBytes ⟨"x"⟩ = .ok .empty) := by
  constructor
  · obtain ⟨⟨⟩, replaced⟩ :=
      exists_eq_ok_of_isOk (replace ⟨"a/x/x"⟩ "new".toUTF8) ringed (by decide +kernel)
    exact ⟨.of_listed (by decide) (by decide), by decide +kernel, _, replaced, by decide +kernel⟩
  · -- broken off when the temporary file has been opened
    have steps := (List.take_append_drop 2 (replaceSteps ⟨"x"⟩ "new".toUTF8)).symm
    obtain ⟨⟨⟩, opened⟩ := exists_eq_ok_of_isOk
      (runAll ((replaceSteps ⟨"x"⟩ "new".toUTF8).take 2)) leaning (by decide +kernel)
    have broken := breaksOff_of_front _ ((replaceSteps ⟨"x"⟩ "new".toUTF8).drop 2)
      (List.isEmpty_eq_false_iff.mp (by decide +kernel)) opened
    rw [← steps] at broken
    exact ⟨.of_listed (by decide) (by decide), by decide +kernel, by decide +kernel, _, broken,
      by decide +kernel⟩

end Workbench.Disk
