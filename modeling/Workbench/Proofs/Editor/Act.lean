import Workbench.Editor.Operation
import Workbench.Proofs.Disk.Place

/-! What each operation of an editor can do to its disk and to what it shows. The outline of the
files apart, an operation that is refused changes nothing. -/
namespace Workbench.Editor

open Disk

/-- What a user asks of an editor. -/
inductive Act where
  | openProject (p : Project)
  | refresh
  | openFile (file : Path)
  | saveFile (text : String)
  | createFile (dir : Path) (name : String)
  | delete (target : Path)

/-- The desk after an operation, whether it was refused or not. -/
def Act.after : Act → Desk → Desk
  | .openProject p, desk => (Editor.openProject p desk).2
  | .refresh, desk => (Editor.refresh desk).2
  | .openFile file, desk => (Editor.openFile file desk).2
  | .saveFile text, desk => (Editor.saveFile text desk).2
  | .createFile dir name, desk => (Editor.createFile dir name desk).2
  | .delete target, desk => (Editor.delete target desk).2

/-- Two desks show the same file of the same project. -/
structure Alike (desk desk' : Desk) : Prop where
  project : desk'.editor.project = desk.editor.project
  file : desk'.editor.currentFile.value = desk.editor.currentFile.value
  text : desk'.editor.content.value = desk.editor.content.value

theorem Alike.refl (desk : Desk) : Alike desk desk := ⟨rfl, rfl, rfl⟩

theorem ask_bind (f : Desk → Outcome α) (g : α → Editing β) (desk : Desk) :
    (Editing.ask f >>= g) desk = match f desk with
      | .ok a => g a desk
      | .error e => (.error e, desk) := by
  rw [bind_apply, Editing.ask]
  cases f desk <;> rfl

/-- Refreshing touches the outline only. -/
theorem refresh_alike (desk : Desk) :
    Alike desk (refresh desk).2 ∧ (refresh desk).2.disk = desk.disk := by
  unfold refresh
  rw [ask_bind]
  split
  · exact ⟨⟨rfl, rfl, rfl⟩, rfl⟩
  · exact ⟨.refl desk, rfl⟩

/-- A path of the project is canonical and lies at or below where the project lies. -/
theorem contained_eq_ok {e : Editor} {d : Disk} (tree : d.IsTree) (target p : Path)
    (contained : e.contained d target = .ok p) :
    ∃ project, ∃ root l : Location, ∃ entry, e.project = some project ∧
      d.locate true project.path = .ok root ∧ e.canonicalRoot d = .ok root.path ∧
      d.locate true (root.path.join target) = .ok l ∧ root <+: l ∧ p = l.path ∧
      d.get? l = some entry ∧ entry.IsPlain := by
  unfold Editor.contained at contained
  cases top : e.canonicalRoot d with
  | error fault => simp [top, bind, Except.bind] at contained
  | ok root =>
    simp only [top, bind, Except.bind] at contained
    cases formed : d.canonical (root.join target) with
    | error fault => simp [formed, Except.mapError] at contained
    | ok canonical =>
      simp only [formed, Except.mapError] at contained
      split at contained
      swap
      · cases contained
      next inside =>
        cases contained
        cases opened : e.project with
        | none => simp [canonicalRoot, Editor.root, opened, bind, Except.bind] at top
        | some project =>
          cases form : d.canonical project.path with
          | error fault =>
            simp [canonicalRoot, Editor.root, opened, form, bind, Except.bind, Except.mapError] at top
          | ok form' =>
            simp only [canonicalRoot, Editor.root, opened, form, bind, Except.bind, Except.mapError]
              at top
            cases top
            obtain ⟨r, located, rfl⟩ := (canonical_eq_ok_iff _ _).mp form
            obtain ⟨l, located', rfl⟩ := (canonical_eq_ok_iff _ _).mp formed
            obtain ⟨entry, found, plain⟩ := locate_plain tree _ _ located'
            obtain ⟨top, there, -⟩ := locate_plain tree _ _ located
            have proper := tree.isProper l (by simp [found])
            have upper := tree.isProper r (by simp [there])
            exact ⟨project, r, l, entry, rfl, located, rfl, located',
              (Location.path_startsWith_iff l r proper upper).mp inside, rfl, found, plain⟩

/-- Which paths are of the project is told by the project alone. -/
theorem contained_of_project {e : Editor} (p : Project) (opened : e.project = some p) (d : Disk)
    (target : Path) : e.contained d target = ({ project := some p } : Editor).contained d target := by
  simp only [Editor.contained, canonicalRoot, Editor.root, opened]

/-- A project that is there is opened, and no file of it. -/
theorem openProject_cases (p : Project) (desk : Desk) :
    p.isThere desk.disk = false ∧ (openProject p desk).2 = desk ∨
      p.isThere desk.disk = true ∧ (openProject p desk).2.disk = desk.disk ∧
        (openProject p desk).2.editor.project = some p ∧
        (openProject p desk).2.editor.currentFile.value = none ∧
        (openProject p desk).2.editor.content.value = "" := by
  unfold openProject
  rw [ask_bind]
  by_cases there : p.isThere desk.disk = true
  · right
    simp only [there, if_true]
    rw [bind_apply]
    obtain ⟨same, disk⟩ := refresh_alike
      { desk with editor := Editor.showing { desk.editor with project := some p } none "" }
    exact ⟨trivial, disk, same.project, same.file, same.text⟩
  · left
    rw [Bool.not_eq_true] at there
    exact ⟨there, by simp [there]⟩

/-- A text file of the project is opened, or nothing is. -/
theorem openFile_answer (file : Path) (desk : Desk) :
    (∃ e, openFile file desk = (.error e, desk)) ∨
      ∃ p text, desk.editor.contained desk.disk file = .ok p ∧ desk.disk.readText p = .ok text ∧
        openFile file desk =
          (.ok text, { desk with editor := desk.editor.showing (some p) text }) := by
  unfold openFile
  rw [ask_bind]
  cases contained : desk.editor.contained desk.disk file with
  | error e => exact .inl ⟨e, rfl⟩
  | ok p =>
    dsimp only
    rw [ask_bind, fileText]
    cases read : desk.disk.readText p with
    | error fault => exact .inl ⟨.ofFault p fault, rfl⟩
    | ok text => exact .inr ⟨p, text, rfl, read, rfl⟩

/-- A text file of the project is opened with the text that it has on the disk. -/
theorem openFile_contained {desk : Desk} (file p : Path) (text : String)
    (contained : desk.editor.contained desk.disk file = .ok p)
    (read : desk.disk.readText p = .ok text) :
    (openFile file desk).2 = { desk with editor := desk.editor.showing (some p) text } := by
  unfold openFile
  rw [ask_bind, contained]
  dsimp only
  rw [ask_bind, fileText, read]
  rfl

/-- A project is opened and then a text file of it. -/
theorem openFile_openProject (p : Project) (d : Disk) (file canonical : Path) (text : String)
    (there : p.isThere d = true)
    (contained : ({ project := some p } : Editor).contained d file = .ok canonical)
    (read : d.readText canonical = .ok text) :
    (openFile file (openProject p { disk := d }).2).2.disk = d ∧
      (openFile file (openProject p { disk := d }).2).2.editor.project = some p ∧
      (openFile file (openProject p { disk := d }).2).2.editor.currentFile.value =
        some canonical := by
  rcases openProject_cases p { disk := d } with ⟨missing, -⟩ | ⟨-, disk, opened, -⟩
  · simp [there] at missing
  · generalize (openProject p { disk := d }).2 = desk at disk opened ⊢
    have inside : desk.editor.contained desk.disk file = .ok canonical := by
      rw [contained_of_project p opened, disk, contained]
    rw [openFile_contained file canonical text inside (disk ▸ read)]
    exact ⟨disk, opened, rfl⟩

/-- The file that is opened is a text file of the project. -/
theorem openFile_cases (file : Path) (desk : Desk) :
    (openFile file desk).2 = desk ∨
      ∃ p text, desk.editor.contained desk.disk file = .ok p ∧ desk.disk.readText p = .ok text ∧
        (openFile file desk).2 = { desk with editor := desk.editor.showing (some p) text } := by
  rcases openFile_answer file desk with ⟨e, failed⟩ | ⟨p, text, contained, read, opened⟩
  · left
    rw [failed]
  · exact .inr ⟨p, text, contained, read, by rw [opened]⟩

/-- A file that is saved is shown as it was saved. One that is not may be left on the disk in
part. -/
theorem saveFile_answer (text : String) (desk : Desk) :
    desk.editor.currentFile.value = none ∧
        saveFile text desk = (.error (.refused .noFileOpen), desk) ∨
      ∃ file, desk.editor.currentFile.value = some file ∧
        ((∃ e, (replaceText file text desk.disk).1 = .error e ∧ saveFile text desk =
            (.error e, { desk with disk := (replaceText file text desk.disk).2 })) ∨
          (replaceText file text desk.disk).1 = .ok () ∧ saveFile text desk = (.ok (), {
            disk := (replaceText file text desk.disk).2
            log := desk.log.line ("File saved: " ++ file.fileName?.getD "")
            editor := { desk.editor with content := desk.editor.content.publish text } })) := by
  unfold saveFile
  rw [ask_bind]
  cases shown : desk.editor.currentFile.value with
  | none => exact .inl ⟨rfl, rfl⟩
  | some file =>
    refine .inr ⟨file, rfl, ?_⟩
    dsimp only
    rw [bind_apply, Editing.onDisk]
    rcases replaceText file text desk.disk with ⟨e | done, disk⟩
    · exact .inl ⟨e, rfl, rfl⟩
    · exact .inr ⟨rfl, rfl⟩

/-- What is saved is the open file, and its text is shown once it is on the disk. -/
theorem saveFile_cases (text : String) (desk : Desk) :
    desk.editor.currentFile.value = none ∧ (saveFile text desk).2 = desk ∨
      ∃ file, desk.editor.currentFile.value = some file ∧
        (saveFile text desk).2.disk = (replaceText file text desk.disk).2 ∧
        ((∃ e, (replaceText file text desk.disk).1 = .error e) ∧ Alike desk (saveFile text desk).2 ∨
          (replaceText file text desk.disk).1 = .ok () ∧
            (saveFile text desk).2.editor.project = desk.editor.project ∧
            (saveFile text desk).2.editor.currentFile.value = some file ∧
            (saveFile text desk).2.editor.content.value = text) := by
  rcases saveFile_answer text desk with
    ⟨closed, failed⟩ | ⟨file, shown, ⟨e, stopped, failed⟩ | ⟨replaced, saved⟩⟩
  · exact .inl ⟨closed, by rw [failed]⟩
  · rw [failed]
    exact .inr ⟨file, shown, rfl, .inl ⟨⟨e, stopped⟩, rfl, rfl, rfl⟩⟩
  · rw [saved]
    exact .inr ⟨file, shown, rfl, .inr ⟨replaced, rfl, shown, rfl⟩⟩

/-- Nothing is made unless the directory for it is in the project. -/
theorem createFile_refused (dir : Path) (name : String) (desk : Desk) :
    (∃ e, createFile dir name desk = (.error e, desk)) ∨
      ∃ root p, desk.editor.root = .ok root ∧
        desk.editor.contained desk.disk (root.join dir) = .ok p := by
  cases inside : (do desk.editor.contained desk.disk ((← desk.editor.root).join dir)) with
  | error e => exact .inl ⟨e, by rw [createFile, ask_bind, inside]⟩
  | ok p =>
    cases rooted : desk.editor.root with
    | error e =>
      rw [rooted] at inside
      cases inside
    | ok root =>
      rw [rooted] at inside
      exact .inr ⟨root, p, rfl, inside⟩

/-- A file is made below a directory of the project, and the outline is read again. -/
theorem createFile_of_contained {desk : Desk} {dir root p : Path} (name : String)
    (rooted : desk.editor.root = .ok root)
    (contained : desk.editor.contained desk.disk (root.join dir) = .ok p) :
    (∃ e disk, Disk.createFile p name desk.disk = (.error e, disk) ∧
        createFile dir name desk = (.error e, { desk with disk })) ∨
      ∃ q disk, Disk.createFile p name desk.disk = (.ok q, disk) ∧
        createFile dir name desk =
          ((refresh { desk with disk }).1.map fun _ => q, (refresh { desk with disk }).2) := by
  have inside : (do desk.editor.contained desk.disk ((← desk.editor.root).join dir)) = .ok p := by
    rw [rooted]
    exact contained
  unfold createFile
  rw [ask_bind, inside]
  dsimp only
  rw [bind_apply, Editing.onDisk]
  rcases Disk.createFile p name desk.disk with ⟨e | q, disk⟩
  · exact .inl ⟨e, disk, rfl, rfl⟩
  · refine .inr ⟨q, disk, rfl, ?_⟩
    dsimp only
    rw [bind_apply]
    rcases refresh { desk with disk } with ⟨e | done, last⟩ <;> rfl

/-- A file is made below a directory of the project, and the open file stays open. -/
theorem createFile_contained {desk : Desk} (dir root p : Path) (name : String)
    (rooted : desk.editor.root = .ok root)
    (contained : desk.editor.contained desk.disk (root.join dir) = .ok p) :
    Alike desk (createFile dir name desk).2 ∧
      (createFile dir name desk).2.disk = (Disk.createFile p name desk.disk).2 := by
  rcases createFile_of_contained name rooted contained with
    ⟨e, disk, made, failed⟩ | ⟨q, disk, made, created⟩
  · rw [failed, made]
    exact ⟨⟨rfl, rfl, rfl⟩, rfl⟩
  · rw [created, made]
    obtain ⟨alike, same⟩ := refresh_alike { desk with disk }
    exact ⟨⟨alike.project, alike.file, alike.text⟩, same⟩

/-- What is made is made below a directory of the project. -/
theorem createFile_cases (dir : Path) (name : String) (desk : Desk) :
    Alike desk (createFile dir name desk).2 ∧
      ((createFile dir name desk).2.disk = desk.disk ∨
        ∃ root p, desk.editor.root = .ok root ∧
          desk.editor.contained desk.disk (root.join dir) = .ok p ∧
          (createFile dir name desk).2.disk = (Disk.createFile p name desk.disk).2) := by
  rcases createFile_refused dir name desk with ⟨e, failed⟩ | ⟨root, p, rooted, contained⟩
  · rw [failed]
    exact ⟨.refl desk, .inl rfl⟩
  · obtain ⟨alike, made⟩ := createFile_contained dir root p name rooted contained
    exact ⟨alike, .inr ⟨root, p, rooted, contained, made⟩⟩

/-- The editor once something was deleted, with the open file closed if it went along. -/
def closing (e : Editor) (p : Path) : Editor :=
  if e.currentFile.value.any (·.startsWith p) then e.showing none "" else e

/-- Nothing is deleted unless it is in the project and is not all of it. -/
theorem delete_refused (target : Path) (desk : Desk) :
    (∃ e, delete target desk = (.error e, desk)) ∧
        (∀ p, desk.editor.contained desk.disk target = .ok p →
          desk.editor.canonicalRoot desk.disk = .ok p) ∨
      ∃ p, desk.editor.contained desk.disk target = .ok p ∧
        desk.editor.canonicalRoot desk.disk ≠ .ok p := by
  cases contained : desk.editor.contained desk.disk target with
  | error e =>
    refine .inl ⟨⟨e, ?_⟩, fun p same => by cases same⟩
    rw [delete, ask_bind, contained]
  | ok p =>
    by_cases whole : desk.editor.canonicalRoot desk.disk = .ok p
    · refine .inl ⟨⟨.refused .projectRootDeletion, ?_⟩, fun q same => by cases same; exact whole⟩
      rw [delete, ask_bind, contained]
      dsimp only
      rw [ask_bind, whole]
      simp [bind, Except.bind]
    · exact .inr ⟨p, rfl, whole⟩

/-- Something of the project other than all of it is deleted, and the outline is read again. -/
theorem delete_of_contained {desk : Desk} {target p : Path}
    (contained : desk.editor.contained desk.disk target = .ok p)
    (part : desk.editor.canonicalRoot desk.disk ≠ .ok p) :
    (∃ e disk, deletePath p desk.disk = (.error e, disk) ∧
        delete target desk = (.error e, { desk with disk })) ∨
      ∃ disk, deletePath p desk.disk = (.ok (), disk) ∧
        delete target desk = refresh { desk with disk, editor := desk.editor.closing p } := by
  obtain ⟨root, top⟩ : ∃ root, desk.editor.canonicalRoot desk.disk = .ok root := by
    cases top : desk.editor.canonicalRoot desk.disk with
    | error e => simp [Editor.contained, top, bind, Except.bind] at contained
    | ok root => exact ⟨root, rfl⟩
  have free : (do if p = (← desk.editor.canonicalRoot desk.disk) then
      (.error (.refused .projectRootDeletion) : Outcome Unit) else .ok ()) = .ok () := by
    rw [top]
    exact if_neg fun same => part (by rw [top, same])
  unfold delete
  rw [ask_bind, contained]
  dsimp only
  rw [ask_bind, free]
  dsimp only
  rw [bind_apply, Editing.onDisk]
  rcases deletePath p desk.disk with ⟨e | done, disk⟩
  · exact .inl ⟨e, disk, rfl, rfl⟩
  · exact .inr ⟨disk, rfl, rfl⟩

/-- What is deleted is something of the project other than all of it, and the open file is closed
if it goes with it. -/
theorem delete_cases (target : Path) (desk : Desk) :
    (delete target desk).2 = desk ∧
        (∀ p, desk.editor.contained desk.disk target = .ok p →
          desk.editor.canonicalRoot desk.disk = .ok p) ∨
      ∃ p, desk.editor.contained desk.disk target = .ok p ∧
        desk.editor.canonicalRoot desk.disk ≠ .ok p ∧
        (delete target desk).2.disk = (deletePath p desk.disk).2 ∧
        (delete target desk).2.editor.project = desk.editor.project ∧
        ((∃ e, (deletePath p desk.disk).1 = .error e) ∧ Alike desk (delete target desk).2 ∨
          (deletePath p desk.disk).1 = .ok () ∧
            if desk.editor.currentFile.value.any (·.startsWith p) = true then
              (delete target desk).2.editor.currentFile.value = none ∧
                (delete target desk).2.editor.content.value = ""
            else Alike desk (delete target desk).2) := by
  rcases delete_refused target desk with ⟨⟨e, failed⟩, whole⟩ | ⟨p, contained, part⟩
  · exact .inl ⟨by rw [failed], whole⟩
  · refine .inr ⟨p, contained, part, ?_⟩
    rcases delete_of_contained contained part with ⟨e, disk, stopped, failed⟩ | ⟨disk, done, deleted⟩
    · rw [failed, stopped]
      exact ⟨rfl, rfl, .inl ⟨⟨e, rfl⟩, rfl, rfl, rfl⟩⟩
    · rw [deleted, done]
      obtain ⟨alike, same⟩ :=
        refresh_alike { desk with disk, editor := desk.editor.closing p }
      unfold closing at alike same ⊢
      refine ⟨same, alike.project.trans (by dsimp only; split <;> rfl), .inr ⟨rfl, ?_⟩⟩
      split
      next goes =>
        rw [if_pos goes] at alike
        exact ⟨alike.file, alike.text⟩
      next stays =>
        rw [if_neg stays] at alike
        exact ⟨alike.project, alike.file, alike.text⟩

end Workbench.Editor
