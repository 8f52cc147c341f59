import Workbench.Disk.Atomic
import Workbench.Json.Basic
import Workbench.Json.Printer
import Workbench.Json.Reader
/-!
# Build records

The outcome of the last build of a project is kept in a file below the project.
-/
namespace Workbench

/-- How projects are built and served. -/
inductive StrategyKind where
  /-- By the bundler and the server of this program. -/
  | builtin
  /-- By programs that are installed on the host. -/
  | toolchain
  deriving DecidableEq, Repr

namespace StrategyKind

def name : StrategyKind → String
  | .builtin => "builtin"
  | .toolchain => "toolchain"

def ofName? (name : String) : Option StrategyKind :=
  if name = "builtin" then some .builtin
  else if name = "toolchain" then some .toolchain
  else none

def lowered (text : String) : String := String.ofList (text.toList.map Char.toLower)

/-- The kind that a user's text names, in either case, or why it names none. -/
def ofText (text : String) : Except String StrategyKind :=
  match ofName? (lowered text) with
  | some kind => .ok kind
  | none =>
    .error ("unknown strategy '" ++ lowered text ++ "' (expected 'builtin' or 'toolchain')")

end StrategyKind

/-- How a build ended. -/
inductive BuildOutcome where
  | success
  | failed
  deriving DecidableEq, Repr

namespace BuildOutcome

def name : BuildOutcome → String
  | .success => "Success"
  | .failed => "Failed"

def ofName? (name : String) : Option BuildOutcome :=
  if name = "Success" then some .success
  else if name = "Failed" then some .failed
  else none

end BuildOutcome

/-- The last build of a project. The time is in seconds since 1970. -/
structure BuildRecord where
  timestamp : Int
  outcome : BuildOutcome
  strategy : StrategyKind
  message : String
  deriving DecidableEq, Repr

namespace BuildRecord

def memberNames : List String := ["timestamp", "outcome", "strategy", "message"]

def toJson (r : BuildRecord) : Json :=
  .record
    [("timestamp", .whole r.timestamp),
     ("outcome", .text r.outcome.name),
     ("strategy", .text r.strategy.name),
     ("message", .text r.message)]

def ofJson? (v : Json) : Option BuildRecord :=
  match v.fields? memberNames with
  | some [timestamp, outcome, strategy, message] => do
    some ⟨← timestamp.int64?, ← BuildOutcome.ofName? (← outcome.choice?),
      ← StrategyKind.ofName? (← strategy.choice?), ← message.text?⟩
  | _ => none

def file (project : Path) : Path := project.join ⟨".bento/state/build.json"⟩

/-- The record of a project, if there is one that can be understood. -/
def load? (d : Disk) (project : Path) : Option BuildRecord :=
  match d.readText (file project) with
  | .ok text => (Json.parse? text).bind ofJson?
  | .error _ => none

def save (project : Path) (r : BuildRecord) : Task Error Unit :=
  Disk.replaceText (file project) r.toJson.render

end BuildRecord

end Workbench
