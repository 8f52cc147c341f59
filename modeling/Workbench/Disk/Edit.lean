import Workbench.Disk.Atomic
/-!
# Editing files

Reading, making and deleting files for a caller who wants an error with the path in it.
-/
namespace Workbench.Disk

def fileText (d : Disk) (p : Path) : Outcome String :=
  (d.readText p).mapError (Error.ofFault p)

/-- Make a directory and the missing ones on the way, with the fault put at its path. -/
def makeDirsAt (p : Path) : Task Error Unit := Task.mapError (Error.ofFault p) (makeDirs p)

def makeParent (p : Path) : Task Error Unit :=
  match p.parent? with
  | some parent => makeDirsAt parent
  | none => pure ()

def writeText (p : Path) (text : String) : Task Error Unit :=
  Task.mapError (Error.ofFault p) (Task.change (writeBytes · p text.toUTF8))

def climbs (name : String) : Bool :=
  ((Text.splitAt '/' name.toList).flatMap (Text.splitAt '\\')).contains ['.', '.']

/-- Make an empty file under a directory; the name may lead through further directories, but
not out of it. A file that is there keeps its content. -/
def createFile (dir : Path) (name : String) : Task Error Path := do
  if Text.trim name = "" then throw (.refused .emptyFileName)
  -- an absolute name would take the place of the directory when joined to it
  if (Path.mk name).isAbsolute || climbs name then throw (.refused (.escapingFileName name))
  let p := dir.join ⟨name⟩
  makeParent p
  Task.mapError (Error.ofFault p) (Task.change fun d => (d.openForWriting false p).map Prod.snd)
  return p

def deletePath (p : Path) : Task Error Unit := do
  -- a link to a directory counts as one, and is removed without what it leads to
  if ← Task.look (isDir · p) then Task.mapError (Error.ofFault p) (removeTree p)
  else Task.mapError (Error.ofFault p) (Task.change (removeFile · p))

def isNonEmptyDir (d : Disk) (p : Path) : Bool :=
  match d.readNames p with
  | .ok names => !names.isEmpty
  | .error _ => false

end Workbench.Disk
