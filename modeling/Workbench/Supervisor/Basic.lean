import Workbench.Editor.Basic
import Workbench.Strategy.Plan
/-!
# The supervisor

A supervisor builds and serves projects. It publishes its status, of which exactly one holds at a
time, and keeps at most one session. Whoever works with the session holds the lock on it.
-/
namespace Workbench

/-- What is going on with a project. -/
inductive Status where
  | idle
  | building
  | running
  | success (message : String)
  | error (message : String)
  deriving DecidableEq, Repr

namespace Status

def isBusy : Status → Bool
  | .building | .running => true
  | _ => false

def isRunning (s : Status) : Bool := s = .running

def isBuilding (s : Status) : Bool := s = .building

def message? : Status → Option String
  | .success message | .error message => some message
  | _ => none

def text : Status → String
  | .idle => "idle"
  | .building => "building"
  | .running => "running"
  | .success message => "success: " ++ message
  | .error message => "error: " ++ message

/-- The bare name of a status, with its message in quotation marks after the name. -/
def label : Status → String
  | .idle => "Idle"
  | .building => "Building"
  | .running => "Running"
  | .success message => "Success(\"" ++ message ++ "\")"
  | .error message => "Error(\"" ++ message ++ "\")"

end Status

/-- What all calls of a supervisor share. -/
structure Supervisor where
  status : Published Status := ⟨.idle, 0⟩
  slot : Option Session := none
  /-- The call that holds the lock on the session. -/
  holder : Option Nat := none
  log : Log := {}

namespace Supervisor

def line (s : Supervisor) (text : String) : Supervisor := { s with log := s.log.line text }

def publishIf (s : Supervisor) (test : Status → Bool) (status : Status) : Supervisor :=
  if test s.status.value then { s with status := s.status.publish status } else s

def release (s : Supervisor) : Supervisor := { s with holder := none }

def noteStop (s : Supervisor) (trouble : Option Error) : Supervisor :=
  match trouble with
  | some e => s.line ("Error stopping server: " ++ e.message)
  | none => s

/-- The summary of a supervisor with a strategy: the kind of strategy, and the status. -/
def summary (s : Supervisor) (kind : StrategyKind) : String :=
  let kind := match kind with
    | .builtin => "Builtin"
    | .toolchain => "Toolchain"
  "Orchestrator \x7b strategy: " ++ kind ++ ", status: " ++ s.status.value.label ++ " \x7d"

end Supervisor

end Workbench
