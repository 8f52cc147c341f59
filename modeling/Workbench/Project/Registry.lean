import Workbench.Disk.Atomic
import Workbench.Json.Reader
import Workbench.Project.Basic
import Workbench.Project.Starter
import Workbench.Serve.Sandbox
/-!
# The registry of projects

The known projects are kept in one file, which every change reads and replaces as a whole. A
file that is missing or cannot be understood counts as an empty registry.
-/
namespace Workbench

/-- The list of known projects, kept in a file. -/
structure Registry where
  file : Path

namespace Registry

def decode? (text : String) : Option (List Project) := do
  (← (← Json.parse? text).items?).mapM Project.ofJson?

def encode (projects : List Project) : String := (Json.array (projects.map Project.toJson)).render

def list (r : Registry) (d : Disk) : List Project :=
  match d.readText r.file with
  | .ok text => (decode? text).getD []
  | .error _ => []

def find? (r : Registry) (d : Disk) (name : String) : Option Project :=
  (r.list d).find? fun p => p.name = name

def save (r : Registry) (projects : List Project) : Task Error Unit :=
  Disk.replaceText r.file (encode projects)

def append (r : Registry) (p : Project) : Task Error Project := do
  let known ← Task.look r.list
  r.save (known ++ [p])
  return p

/-- Why a name cannot be the name of a new project, if so. Blanks at its ends do not count. -/
def refusal? (name : String) : Option Refusal :=
  let trimmed := Text.trim name
  if trimmed = "" then some .emptyProjectName
  else if trimmed = "." || trimmed = ".." || trimmed.toList.contains '/' ||
      trimmed.toList.contains '\\' then some (.badProjectName name)
  else none

/-- Make a project with starter files in a workspace, and register it. -/
def create (r : Registry) (workspace : Path) (name : String) (now : Int) : Task Error Project := do
  if let some why := refusal? name then throw (.refused why)
  let root := workspace.child name
  if ← Task.look (Disk.isThere · root) then throw (.refused (.projectThere root))
  Disk.makeDirsAt root
  -- what was made stays there if a later step fails
  Starter.write root name
  let path ← Task.mapError (Error.ofFault root) (Task.ask (Disk.canonical · root))
  r.append (.make name path now)

/-- Register a directory that has sources or a package description. -/
def register (r : Registry) (home : Option String) (input : String) (now : Int) :
    Task Error Project := do
  let user ← Task.ask (UserPath.ofInput · home input)
  let dir ← Task.ask user.directory
  let isProject ← Task.look fun d => d.isDir (dir.child "src") || d.isFile (dir.child "package.json")
  unless isProject do throw (.refused (.noProjectIn dir))
  -- projects are told apart by their directories, not by their names
  let known ← Task.look r.list
  if known.any (·.path.isSameAs dir) then throw (.refused (.projectKnown dir))
  r.append (.ofDir dir now)

end Registry

end Workbench
