import Workbench.Bundle.Run
import Workbench.Program.Basic
import Workbench.Project.Basic
import Workbench.Project.BuildRecord
import Workbench.Serve.Server
/-!
# Plans

A plan is what a strategy does, step by step: it adds lines to the log, looks at the disk, and
asks for work that takes time. What comes next may depend on the answers. A plan does nothing by
itself; whoever carries it out decides how the answers come about.
-/
namespace Workbench

/-- What serves a project: a server of this program, or a program that was started. -/
inductive Session where
  | server (s : StaticServer)
  | program (pid : Nat)
  deriving DecidableEq, Repr

/-- Steps that end in an answer. -/
inductive Plan (α : Type) where
  | done (a : α)
  /-- Add a line to the log. -/
  | say (line : String) (next : Plan α)
  /-- Look whether something is at a path. -/
  | look (p : Path) (next : Bool → Plan α)
  /-- Build a bundle. -/
  | bundle (job : Bundle.Job) (next : Outcome Bundle.Report → Plan α)
  /-- Run a program to its end and add what it writes to the log. The answer is its exit code. -/
  | run (c : Command) (next : Outcome Int → Plan α)
  /-- Start a program and leave it running; what it writes is added to the log. -/
  | launch (c : Command) (next : Outcome Session → Plan α)
  /-- Start a server. The answer is the address that it is bound to. -/
  | listen (s : StaticServer) (next : Outcome (SocketAddress × Session) → Plan α)
  /-- Wait for a signal. -/
  | await (signal : String) (next : Plan α)

namespace Plan

def bind : Plan α → (α → Plan β) → Plan β
  | done a, f => f a
  | say line next, f => say line (next.bind f)
  | look p next, f => look p fun there => (next there).bind f
  | bundle job next, f => bundle job fun report => (next report).bind f
  | run c next, f => run c fun code => (next code).bind f
  | launch c next, f => launch c fun session => (next session).bind f
  | listen s next, f => listen s fun bound => (next bound).bind f
  | await signal next, f => await signal (next.bind f)

instance : Monad Plan where
  pure := done
  bind := bind

end Plan

/-- How a project is built and served. -/
structure Strategy where
  kind : StrategyKind
  /-- The directory that results are written to, as seen from the project. -/
  outDir : String
  /-- Build a project. The answer is whether that succeeded. -/
  build : Project → Plan Bool
  /-- Serve what was built. -/
  serve : Project → Plan (Outcome Session)

namespace Strategy

def outputDir (s : Strategy) (p : Project) : Path := p.outputDir s.outDir

def divider : String := String.ofList (List.replicate 33 (Char.ofNat 0x2501))

def say (line : String) : Plan Unit := .say line (.done ())

end Strategy

end Workbench
