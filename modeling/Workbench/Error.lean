import Workbench.Address.Basic
import Workbench.Disk.Fault
/-!
# Errors

Why an operation of the workbench failed, as causes, and one wording for each.
-/
namespace Workbench

/-- Something that the caller asked for is refused. -/
inductive Refusal where
  | emptyPath
  | remotePath (text : String)
  | notDirectory (p : Path)
  | emptyFileName
  | escapingFileName (name : String)
  | noProjectOpen
  | noFileOpen
  | outsideProject (p : Path)
  | projectRootDeletion
  | emptyProjectName
  | badProjectName (name : String)
  | projectThere (p : Path)
  | noProjectIn (p : Path)
  | projectKnown (p : Path)
  | emptyCommand
  | rootOfRunningServer
  | worded (text : String)
  deriving DecidableEq, Repr

def Refusal.message : Refusal → String
  | .emptyPath => "Path cannot be empty"
  | .remotePath text => "Only local paths are supported: " ++ text
  | .notDirectory p => "Not a directory: " ++ p.text
  | .emptyFileName => "File name cannot be empty"
  | .escapingFileName name => "File name must be relative to the project: " ++ name
  | .noProjectOpen => "No project is open"
  | .noFileOpen => "No file is open"
  | .outsideProject p => "Path is outside the project: " ++ p.text
  | .projectRootDeletion => "Refusing to delete the project root"
  | .emptyProjectName => "Project name cannot be empty"
  | .badProjectName name => "Invalid project name: " ++ name
  | .projectThere p => "Project already exists: " ++ p.text
  | .noProjectIn p => "Not a project directory (no src/ or package.json): " ++ p.text
  | .projectKnown p => "Project already registered: " ++ p.text
  | .emptyCommand => "Command cannot be empty"
  | .rootOfRunningServer => "Cannot change the root of a running server"
  | .worded text => text

def allowedPrograms : List String :=
  ["npm", "npx", "node", "bun", "bunx", "yarn", "pnpm", "deno", "sh", "bash"]

def quotedList (texts : List String) : String :=
  "[" ++ ", ".intercalate (texts.map fun t => "\"" ++ t ++ "\"") ++ "]"

/-- A program could not be started or ended. -/
inductive ProgramFault where
  | notAllowed (program : String)
  | notStarted (command : String) (reason : Fault)
  | worded (text : String)
  deriving DecidableEq, Repr

def ProgramFault.message : ProgramFault → String
  | .notAllowed program =>
    "Command '" ++ program ++ "' not in whitelist. Allowed: " ++ quotedList allowedPrograms
  | .notStarted command reason => "Failed to execute `" ++ command ++ "`: " ++ reason.message
  | .worded text => text

/-- The server could not be brought up. -/
inductive ServerFault where
  | notBound (address : SocketAddress) (reason : Fault)
  | notRead (reason : Fault)
  | worded (text : String)
  deriving DecidableEq, Repr

def ServerFault.message : ServerFault → String
  | .notBound address reason => "Failed to bind to " ++ address.text ++ ": " ++ reason.message
  | .notRead reason => "Failed to read bound address: " ++ reason.message
  | .worded text => text

/-- The configuration cannot be used. -/
inductive ConfigFault where
  | unreadable
  | noHome
  | badAddress (text : String)
  | worded (text : String)
  deriving DecidableEq, Repr

def ConfigFault.message : ConfigFault → String
  | .unreadable => "Failed to parse config TOML"
  | .noHome => "Could not find home directory"
  | .badAddress text =>
    "Invalid server address '" ++ text ++ "': invalid socket address syntax"
  | .worded text => text

/-- Why an operation failed. -/
inductive Error where
  | refused (why : Refusal)
  | io (path : Path) (reason : Fault)
  | program (why : ProgramFault)
  | notFound (path : Path)
  | server (why : ServerFault)
  | config (why : ConfigFault)
  deriving DecidableEq, Repr

namespace Error

def message : Error → String
  | .refused why => "Validation error: " ++ why.message
  | .io path reason => "I/O error at " ++ path.text ++ ": " ++ reason.message
  | .program why => "Process error: " ++ why.message
  | .notFound path => "Not found: " ++ path.text
  | .server why => "Server error: " ++ why.message
  | .config why => "Configuration error: " ++ why.message

/-- The wording of an error together with its causes, each after a colon. -/
def chain : Error → String
  | .io path reason => ": ".intercalate ((Error.io path reason).message :: reason.chain)
  | e => e.message

/-- The error for a fault at a path: what is missing is not found. -/
def ofFault (path : Path) (reason : Fault) : Error :=
  if reason.isAbsence then .notFound path else .io path reason

end Error

abbrev Outcome (α : Type) := Except Error α

end Workbench
