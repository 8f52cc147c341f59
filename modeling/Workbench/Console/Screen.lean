import Workbench.Console.Echo
import Workbench.Disk.Outline
import Workbench.Error
import Workbench.Text.Numeral
/-!
# What the console shows

Results go to the output of the program, failures and remarks to its error output.
-/
namespace Workbench.Console

/-- What was written to the output and to the error output. -/
structure Screen where
  out : String := ""
  err : String := ""
  deriving DecidableEq, Repr

namespace Screen

def print (s : Screen) (text : String) : Screen := { s with out := s.out ++ text }

def printLine (s : Screen) (line : String) : Screen := s.print (line ++ "\n")

def remark (s : Screen) (line : String) : Screen := { s with err := s.err ++ line ++ "\n" }

def notice (s : Screen) : Notice → Screen
  | .line text => s.printLine text
  | .skipped lost => s.remark ("... " ++ Text.decimal lost ++ " log lines skipped")

end Screen

mutual

/-- The lines that show an entry of an outline and what is in it, indented by two blanks for
each level. -/
def outlineLines (depth : Nat) : Outline → List String
  | .node name _ isDirectory children =>
    (String.ofList (List.replicate (2 * depth) ' ') ++ name ++ (if isDirectory then "/" else "")) ::
      outlineListLines (depth + 1) children

def outlineListLines (depth : Nat) : List Outline → List String
  | [] => []
  | o :: rest => outlineLines depth o ++ outlineListLines depth rest

end

/-- Why an action failed. -/
inductive Failure where
  | error (e : Error)
  | notCreated (name : String) (e : Error)
  | notRegistered (path : String) (e : Error)
  | unreadableInput
  | unknownProject (reference : String)
  | notBuilt (name : String)
  | notBuiltForServer (name : String)
  | notRunning (name : String)
  deriving DecidableEq, Repr

def Failure.message : Failure → String
  | .error e => e.chain
  | .notCreated name e => "Failed to create project '" ++ name ++ "': " ++ e.chain
  | .notRegistered path e => "Failed to import " ++ path ++ ": " ++ e.chain
  | .unreadableInput => "Failed to read stdin: stream did not contain valid UTF-8"
  | .unknownProject reference =>
    "Unknown project '" ++ reference ++ "': not a registered name or a directory"
  | .notBuilt name => "Build of '" ++ name ++ "' failed"
  | .notBuiltForServer name => "Build of '" ++ name ++ "' failed, not starting the server"
  | .notRunning name => "'" ++ name ++ "' is not running"

end Workbench.Console
