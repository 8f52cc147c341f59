import Workbench.Disk.Outline
import Workbench.Log.Basic
import Workbench.Project.Basic
/-!
# The editor

An editor has one project open, shows the outline of its files, and holds the text of at most one
of them. Observers can tell when one of these was published, even if it did not change.
-/
namespace Workbench

/-- A value with the number of times that it was published. -/
structure Published (α : Type) where
  value : α
  version : Nat := 0

namespace Published

def publish (p : Published α) (value : α) : Published α := ⟨value, p.version + 1⟩

def isNewerThan (p old : Published α) : Bool := old.version < p.version

end Published

/-- The state of an editor. Without an open file the text is empty. -/
structure Editor where
  project : Option Project := none
  tree : Published (List Outline) := ⟨[], 0⟩
  currentFile : Published (Option Path) := ⟨none, 0⟩
  content : Published String := ⟨"", 0⟩

/-- An editor with the disk and the log that it works on. -/
structure Desk where
  disk : Disk
  log : Log := {}
  editor : Editor := {}

abbrev Editing (α : Type) := ExceptT Error (StateM Desk) α

namespace Editing

def onDisk (task : Task Error α) : Editing α := fun desk =>
  let (result, disk) := task desk.disk
  (result, { desk with disk })

def ask (f : Desk → Outcome α) : Editing α := fun desk => (f desk, desk)

def change (f : Editor → Editor) : Editing Unit := fun desk =>
  (.ok (), { desk with editor := f desk.editor })

def line (text : String) : Editing Unit := fun desk =>
  (.ok (), { desk with log := desk.log.line text })

end Editing

namespace Editor

def root (e : Editor) : Outcome Path :=
  match e.project with
  | some p => .ok p.path
  | none => .error (.refused .noProjectOpen)

def showing (e : Editor) (file : Option Path) (text : String) : Editor :=
  { e with currentFile := e.currentFile.publish file, content := e.content.publish text }

end Editor

end Workbench
