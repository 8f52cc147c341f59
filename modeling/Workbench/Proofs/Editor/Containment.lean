import Workbench.Proofs.Editor.Run

/-! What an editor changes on the disk lies in the project that is open. -/
namespace Workbench.Editor

open Disk

variable {desk : Desk} {home : Option Location} {d : Disk}

/-- Whatever an operation makes, changes or removes lies in the project, at or below where it lay
when it was opened, and the path of the project leads nowhere else. -/
theorem changes_inside_project (storable : d.IsStorable)
    (reached : Reached Act.IsUnlinked d desk home) (act : Act) (unlinked : act.IsUnlinked desk)
    (l : Location) (changed : (act.after desk).disk.get? l ≠ desk.disk.get? l) :
    ∃ p root, desk.editor.project = some p ∧ home = some root ∧ root <+: l ∧
      ∀ k, desk.disk.locate true p.path = .ok k → k = root := by
  have sound := reached.sound storable
  rcases (sound.step act unlinked).2 with same | ⟨p, root, opened, place, confined⟩
  · exact absurd (by rw [same]) changed
  · refine ⟨p, root, opened, place, ?_, fun k => sound.located p root k opened place⟩
    by_contra outside
    exact changed (confined.same l outside)

/-- A project with a file, and a directory beside it that a link in the project leads to. -/
def linkedProject : Disk where
  entries :=
    [(["p"], .directory), (["p", "a.txt"], .file "old".toUTF8 false), (["out"], .directory),
      (["p", "link"], .link ⟨"../out"⟩)]
  workDir := []

def linked : Project := .make "p" ⟨"/p"⟩ 0

/-- The desk with the project open, and a file of it. -/
def fileOpen : Desk :=
  (openFile ⟨"a.txt"⟩ (openProject linked { disk := linkedProject }).2).2

/-- What the desk holds, its outline apart. -/
theorem fileOpen_facts : fileOpen.disk = linkedProject ∧ fileOpen.editor.project = some linked ∧
    fileOpen.editor.currentFile.value = some ⟨"/p/a.txt"⟩ :=
  openFile_openProject linked linkedProject ⟨"a.txt"⟩ ⟨"/p/a.txt"⟩ "old" (by decide)
    (by decide) (by decide)

theorem fileOpen_reached : Reached Act.IsUnlinked linkedProject fileOpen (some ["p"]) := by
  have home : (Act.openProject linked).home { disk := linkedProject } none = some ["p"] := by
    decide
  have opened : Reached Act.IsUnlinked linkedProject _ _ :=
    .step (.openProject linked) (.start {}) trivial
  rw [home] at opened
  exact .step (.openFile ⟨"a.txt"⟩) opened trivial

/-- The file that is saved lies in the project. -/
theorem saved_inside : linkedProject.IsStorable ∧
    Reached Act.IsUnlinked linkedProject fileOpen (some ["p"]) ∧
    (Act.saveFile "new").IsUnlinked fileOpen ∧
    ((Act.saveFile "new").after fileOpen).disk.get? ["p", "a.txt"] ≠
      fileOpen.disk.get? ["p", "a.txt"] ∧
    ∃ p root, fileOpen.editor.project = some p ∧ some ["p"] = some root ∧
      root <+: ["p", "a.txt"] ∧ ∀ k, fileOpen.disk.locate true p.path = .ok k → k = root := by
  have storable : linkedProject.IsStorable := .of_listed (by decide) (by decide)
  obtain ⟨disk, opened, shown⟩ := fileOpen_facts
  have unlinked : (Act.saveFile "new").IsUnlinked fileOpen := by
    intro file l target shown' located
    rw [shown] at shown'
    cases shown'
    have missing : (linkedProject.locate false (Path.temporary ⟨"/p/a.txt"⟩)).isOk = false := by
      decide +kernel
    rw [disk] at located
    rw [located] at missing
    cases missing
  have changed : ((Act.saveFile "new").after fileOpen).disk.get? ["p", "a.txt"] ≠
      fileOpen.disk.get? ["p", "a.txt"] := by
    rcases saveFile_cases "new" fileOpen with ⟨closed, -⟩ | ⟨file, shown', saved, -⟩
    · simp [shown] at closed
    · rw [shown] at shown'
      cases shown'
      rw [Act.after, saved, disk]
      decide +kernel
  exact ⟨storable, fileOpen_reached, unlinked, changed,
    changes_inside_project storable fileOpen_reached (.saveFile "new") unlinked _ changed⟩

/-- A file is made outside of the project by a name that goes through a link. -/
theorem made_outside :
    ((Act.createFile ⟨""⟩ "link/evil.txt").after fileOpen).disk.get? ["out", "evil.txt"] =
      some (.file .empty false) := by
  obtain ⟨disk, opened, -⟩ := fileOpen_facts
  have rooted : fileOpen.editor.root = .ok ⟨"/p"⟩ := by rw [Editor.root, opened]; rfl
  have inside : fileOpen.editor.contained fileOpen.disk (Path.join ⟨"/p"⟩ ⟨""⟩) = .ok ⟨"/p"⟩ := by
    rw [contained_of_project linked opened, disk]
    decide +kernel
  rw [Act.after, (createFile_contained ⟨""⟩ ⟨"/p"⟩ ⟨"/p"⟩ "link/evil.txt" rooted inside).2, disk]
  decide +kernel

end Workbench.Editor
