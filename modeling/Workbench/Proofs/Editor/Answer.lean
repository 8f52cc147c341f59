import Workbench.Proofs.Disk.Outline
import Workbench.Proofs.Editor.Act

/-! How an operation of an editor ends. It is refused before anything is published, or it goes
through to the end, with the outline of the project as it is then. -/
namespace Workbench.Editor

open Disk

/-- Whether an operation went through, and why it did not. -/
def Act.answer : Act → Desk → Outcome Unit
  | .openProject p, desk => (Editor.openProject p desk).1
  | .refresh, desk => (Editor.refresh desk).1
  | .openFile file, desk => (Editor.openFile file desk).1.map fun _ => ()
  | .saveFile text, desk => (Editor.saveFile text desk).1
  | .createFile dir name, desk => (Editor.createFile dir name desk).1.map fun _ => ()
  | .delete target, desk => (Editor.delete target desk).1

/-- The editor once the outline of its project is published. -/
def outlined (e : Editor) (tree : List Outline) : Editor := { e with tree := e.tree.publish tree }

variable {desk : Desk}

theorem refresh_of_outline (p : Project) (tree : List Outline)
    (opened : desk.editor.project = some p) (outline : desk.disk.outline p.path = .ok tree) :
    refresh desk = (.ok (), { desk with editor := desk.editor.outlined tree }) := by
  have asked : (do desk.disk.outline (← desk.editor.root)) = .ok tree := by
    rw [Editor.root, opened]
    exact outline
  rw [refresh, ask_bind, asked]
  rfl

/-- The outline is published if there is one. -/
theorem refresh_answer (desk : Desk) :
    (∃ e, refresh desk = (.error e, desk)) ∨
      ∃ p tree, desk.editor.project = some p ∧ desk.disk.outline p.path = .ok tree ∧
        refresh desk = (.ok (), { desk with editor := desk.editor.outlined tree }) := by
  cases opened : desk.editor.project with
  | none =>
    left
    refine ⟨.refused .noProjectOpen, ?_⟩
    rw [refresh, ask_bind, Editor.root, opened]
    rfl
  | some p =>
    cases outline : desk.disk.outline p.path with
    | error e =>
      left
      have asked : (do desk.disk.outline (← desk.editor.root)) = .error e := by
        rw [Editor.root, opened]
        exact outline
      exact ⟨e, by rw [refresh, ask_bind, asked]⟩
    | ok tree => exact .inr ⟨p, tree, rfl, outline, refresh_of_outline p tree opened outline⟩

/-- A project that is there is opened, with its outline. -/
theorem openProject_answer (p : Project) (desk : Desk) :
    p.isThere desk.disk = false ∧ openProject p desk = (.error (.notFound p.path), desk) ∨
      p.isThere desk.disk = true ∧ ∃ tree, desk.disk.outline p.path = .ok tree ∧
        openProject p desk = (.ok (), { desk with
          editor := (showing { desk.editor with project := some p } none "").outlined tree }) := by
  unfold openProject
  rw [ask_bind]
  by_cases there : p.isThere desk.disk = true
  · right
    obtain ⟨tree, outline⟩ := exists_outline (d := desk.disk) (p := p.path) fun _ => there
    refine ⟨there, tree, outline, ?_⟩
    simp only [there, if_true]
    rw [bind_apply, Editing.change]
    exact refresh_of_outline p tree rfl outline
  · left
    rw [Bool.not_eq_true] at there
    exact ⟨there, by simp [there]⟩

/-- A project leads where it led when more is on the disk. -/
theorem isRoot_of_extended {d d' : Disk} {p : Path} {root : Location} (extended : Extended d d')
    (located : d.locate true p = .ok root) (directory : d'.get? root = some .directory) :
    d'.IsRoot p := fun _ =>
  (isDir_iff p).mpr ⟨root, locate_mono extended.part extended.workDir located, directory⟩

/-- A file that is made is in the outline. One that is not may leave directories on its way. -/
theorem createFile_answer (storable : desk.disk.IsStorable) (dir : Path) (name : String) :
    (∃ e, createFile dir name desk = (.error e, desk)) ∨
      ∃ root p, desk.editor.root = .ok root ∧
        desk.editor.contained desk.disk (root.join dir) = .ok p ∧
        ((∃ e, (Disk.createFile p name desk.disk).1 = .error e ∧ createFile dir name desk =
            (.error e, { desk with disk := (Disk.createFile p name desk.disk).2 })) ∨
          ∃ q project tree, desk.editor.project = some project ∧
            (Disk.createFile p name desk.disk).1 = .ok q ∧
            (Disk.createFile p name desk.disk).2.outline project.path = .ok tree ∧
            createFile dir name desk = (.ok q, { desk with
              disk := (Disk.createFile p name desk.disk).2
              editor := desk.editor.outlined tree })) := by
  rcases createFile_refused dir name desk with refused | ⟨root, p, rooted, contained⟩
  · exact .inl refused
  · refine .inr ⟨root, p, rooted, contained, ?_⟩
    have extended := createFile_extends p name desk.disk storable
    rcases createFile_of_contained name rooted contained with
      ⟨e, disk, made, failed⟩ | ⟨q, disk, made, created⟩
    · rw [made]
      exact .inl ⟨e, rfl, failed⟩
    · rw [made] at extended ⊢
      obtain ⟨project, top, l, entry, opened, located, -, -, below, rfl, found, plain⟩ :=
        contained_eq_ok storable.toIsTree _ p contained
      -- the file was made under a directory, so that the project is one
      have directory := directory_of_createFile storable entry found plain q made
      have directory' : disk.get? top = some .directory := by
        obtain ⟨rest, rfl⟩ := below
        by_cases here : rest = []
        · simpa [here] using directory
        · exact extended.storable.directory_of_below top rest here (by simp [directory])
      obtain ⟨tree, outline⟩ := exists_outline (isRoot_of_extended extended located directory')
      have refreshed : refresh { desk with disk } = _ :=
        refresh_of_outline project tree opened outline
      refine .inr ⟨q, project, tree, opened, rfl, outline, ?_⟩
      rw [created, refreshed]
      rfl

/-- What is deleted is something of the project other than all of it. It is gone with all that
lies below it, and the outline does without it. -/
theorem delete_answer (storable : desk.disk.IsStorable) (target : Path) :
    (∃ e, delete target desk = (.error e, desk)) ∧
        (∀ p, desk.editor.contained desk.disk target = .ok p →
          desk.editor.canonicalRoot desk.disk = .ok p) ∨
      ∃ project, ∃ root l : Location, ∃ d' tree, desk.editor.project = some project ∧
        desk.disk.locate true project.path = .ok root ∧
        desk.editor.canonicalRoot desk.disk = .ok root.path ∧
        desk.disk.locate true (root.path.join target) = .ok l ∧ root <+: l ∧ l ≠ root ∧
        Removed l desk.disk d' ∧ (∀ k, l <+: k → d'.get? k = none) ∧
        d'.outline project.path = .ok tree ∧
        delete target desk = (.ok (), { desk with
          disk := d', editor := (desk.editor.closing l.path).outlined tree }) := by
  rcases delete_refused target desk with refused | ⟨p, contained, part⟩
  · exact .inl refused
  · right
    obtain ⟨project, root, l, entry, opened, located, top, led, below, rfl, found, plain⟩ :=
      contained_eq_ok storable.toIsTree target p contained
    have apart : l ≠ root := by
      rintro rfl
      exact part top
    have nonempty : l ≠ [] := by
      rintro rfl
      exact apart (List.prefix_nil.mp below).symm
    obtain ⟨d', gone, removed, below'⟩ := deletePath_path storable entry nonempty found plain
    -- what lies below the project is no part of the way to it
    have directory : desk.disk.get? root = some .directory := by
      obtain ⟨rest, rfl⟩ := below
      exact storable.directory_of_below root rest (by simpa using apart) (by simp [found])
    have kept : d'.get? root = some .directory := by
      rw [removed.same root fun within => apart (within.eq_of_length_le below.length_le),
        directory]
    have isDir : desk.disk.isDir project.path = true := (isDir_iff _).mpr ⟨root, located, directory⟩
    obtain ⟨tree, outline⟩ := exists_outline (IsRoot.of_part (fun _ => isDir) removed.isPartOf
      removed.workDir.symm fun k here _ _ => by
        rw [located] at here
        cases here
        exact kept)
    refine ⟨project, root, l, d', tree, opened, located, top, led, below, apart, removed, below',
      outline, ?_⟩
    have still : (desk.editor.closing l.path).project = some project := by
      rw [← opened, closing]
      split <;> rfl
    rcases delete_of_contained contained part with ⟨e, disk, stopped, -⟩ | ⟨disk, done, deleted⟩
    · cases gone.symm.trans stopped
    · cases gone.symm.trans done
      rw [deleted]
      exact refresh_of_outline project tree still outline

/-- An operation that is refused publishes nothing and logs nothing, whatever it has done to the
disk. -/
theorem refused_publishes_nothing (storable : desk.disk.IsStorable) (act : Act) (e : Error)
    (refused : act.answer desk = .error e) :
    (act.after desk).editor = desk.editor ∧ (act.after desk).log = desk.log := by
  cases act with
  | openProject p =>
    rcases openProject_answer p desk with ⟨-, failed⟩ | ⟨-, tree, -, done⟩
    · simp only [Act.after, failed, and_self]
    · simp [Act.answer, done] at refused
  | refresh =>
    rcases refresh_answer desk with ⟨e', failed⟩ | ⟨p, tree, -, -, done⟩
    · simp only [Act.after, failed, and_self]
    · simp [Act.answer, done] at refused
  | openFile file =>
    rcases openFile_answer file desk with ⟨e', failed⟩ | ⟨p, text, -, -, done⟩
    · simp only [Act.after, failed, and_self]
    · simp [Act.answer, done, Except.map] at refused
  | saveFile text =>
    rcases saveFile_answer text desk with
      ⟨-, failed⟩ | ⟨file, -, ⟨e', -, failed⟩ | ⟨-, done⟩⟩
    · simp only [Act.after, failed, and_self]
    · simp only [Act.after, failed, and_self]
    · simp [Act.answer, done] at refused
  | createFile dir name =>
    rcases createFile_answer storable dir name with
      ⟨e', failed⟩ | ⟨root, p, -, -, ⟨e', -, failed⟩ | ⟨q, project, tree, -, -, -, done⟩⟩
    · simp only [Act.after, failed, and_self]
    · simp only [Act.after, failed, and_self]
    · simp [Act.answer, done, Except.map] at refused
  | delete target =>
    rcases delete_answer storable target with ⟨⟨e', failed⟩, -⟩ | deleted
    · simp only [Act.after, failed, and_self]
    · obtain ⟨_, _, _, _, _, -, -, -, -, -, -, -, -, -, done⟩ := deleted
      simp [Act.answer, done] at refused

/-- A project with a file and a link to it, and another file beside it. -/
def linkedFile : Disk where
  entries :=
    [(["p"], .directory), (["p", "a.txt"], .file "old".toUTF8 false),
      (["p", "link"], .link ⟨"a.txt"⟩), (["kept.txt"], .file "kept".toUTF8 false)]
  workDir := []

/-- The desk with the project open. -/
def projectOpen : Desk where
  disk := linkedFile
  editor := { project := some (.make "p" ⟨"/p"⟩ 0) }

theorem projectOpen_storable : projectOpen.disk.IsStorable := .of_listed (by decide) (by decide)

/-- A file whose name ends in a slash is not made, and the directory for it is. Nothing of it is
published. -/
theorem directory_made_in_silence :
    (Act.createFile ⟨""⟩ "d/x/").answer projectOpen =
        .error (.io ⟨"/p/d/x/"⟩ .isDirectory) ∧
      ((Act.createFile ⟨""⟩ "d/x/").after projectOpen).disk.get? ["p", "d"] = some .directory ∧
      ((Act.createFile ⟨""⟩ "d/x/").after projectOpen).editor = projectOpen.editor ∧
      ((Act.createFile ⟨""⟩ "d/x/").after projectOpen).log = projectOpen.log := by
  have refused : (Act.createFile ⟨""⟩ "d/x/").answer projectOpen =
      .error (.io ⟨"/p/d/x/"⟩ .isDirectory) := by
    decide +kernel
  refine ⟨refused, by decide +kernel, ?_⟩
  exact refused_publishes_nothing projectOpen_storable _ _ refused

end Workbench.Editor
