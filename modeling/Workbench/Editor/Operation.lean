import Workbench.Disk.Edit
import Workbench.Editor.Basic
import Workbench.Serve.Sandbox
/-!
# What an editor does

Each operation looks at the disk, changes it, and publishes what has changed. Paths are made
canonical first and must lie in the canonical directory of the project.
-/
namespace Workbench.Editor

def canonicalRoot (e : Editor) (d : Disk) : Outcome Path := do
  let root ← e.root
  (d.canonical root).mapError fun _ => .notFound root

/-- The canonical form of a path as seen from the project, which must lie in the project. -/
def contained (e : Editor) (d : Disk) (target : Path) : Outcome Path := do
  let root ← e.canonicalRoot d
  let target := root.join target
  let canonical ← (d.canonical target).mapError fun _ => Error.notFound target
  if Serve.isWithin root canonical then .ok canonical
  else .error (.refused (.outsideProject target))

def refresh : Editing Unit := do
  let tree ← Editing.ask fun desk => do desk.disk.outline (← desk.editor.root)
  Editing.change fun e => { e with tree := e.tree.publish tree }

def openProject (p : Project) : Editing Unit := do
  Editing.ask fun desk => if p.isThere desk.disk then .ok () else .error (.notFound p.path)
  Editing.change fun e => { e with project := some p }.showing none ""
  refresh

/-- Open a file of the project. The answer is its text. -/
def openFile (file : Path) : Editing String := do
  let file ← Editing.ask fun desk => desk.editor.contained desk.disk file
  let text ← Editing.ask fun desk => desk.disk.fileText file
  Editing.change (·.showing (some file) text)
  return text

def saveFile (text : String) : Editing Unit := do
  let file ← Editing.ask fun desk =>
    match desk.editor.currentFile.value with
    | some file => .ok file
    | none => .error (.refused .noFileOpen)
  -- the file lay in the project when it was opened, and is not looked at again
  Editing.onDisk (Disk.replaceText file text)
  Editing.change fun e => { e with content := e.content.publish text }
  Editing.line ("File saved: " ++ file.fileName?.getD "")

def createFile (dir : Path) (name : String) : Editing Path := do
  let dir ← Editing.ask fun desk => do
    desk.editor.contained desk.disk ((← desk.editor.root).join dir)
  let created ← Editing.onDisk (Disk.createFile dir name)
  refresh
  return created

/-- Delete a file or a directory of the project, and close the open file if it goes with it. -/
def delete (target : Path) : Editing Unit := do
  let target ← Editing.ask fun desk => desk.editor.contained desk.disk target
  Editing.ask fun desk => do
    if target = (← desk.editor.canonicalRoot desk.disk) then
      .error (.refused .projectRootDeletion)
    else .ok ()
  Editing.onDisk (Disk.deletePath target)
  Editing.change fun e =>
    -- the open file may lie below what was deleted
    if e.currentFile.value.any (·.startsWith target) then e.showing none "" else e
  refresh

end Workbench.Editor
