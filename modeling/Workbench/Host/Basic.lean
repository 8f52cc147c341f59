import Workbench.Host.Shell.Step
import Workbench.Program.Basic
import Workbench.Serve.Server
/-!
# The host

The host is the machine that the workbench runs on: its disk, its network, its clock, and the
programs that were started. Programs go on only while time passes.
-/
namespace Workbench

/-- A program that was started: the script that it runs, when it goes on, how it ended, and what
was read of its output. -/
structure Child where
  script : Shell.Script
  wakeAt : Nat
  ending : Option Shell.Ending := none
  relay : Relay := {}

namespace Child

def pid (c : Child) : Nat := c.script.pid

def isAlive (c : Child) : Bool := c.ending.isNone

/-- Read what a program has written, up to the end if it has ended. -/
def read (c : Child) : Child :=
  let relay := c.script.written.foldl (fun r (isError, bytes) =>
    r.feed (if isError then .error else .output) bytes) c.relay
  let relay := if c.isAlive then relay else (relay.close .output).close .error
  { c with relay, script := { c.script with written := [] } }

/-- The code that a program ended with; minus one after a signal. -/
def code? (c : Child) : Option Int :=
  c.ending.map fun
    | .exited code => code
    | .killed => -1

end Child

/-- A machine. The clock counts thousandths of a second since 1970. -/
structure Host where
  disk : Disk
  network : Network := {}
  table : ProgramTable
  environment : List (String × String) := []
  children : List Child := []
  nextPid : Nat := 4000
  clock : Nat := 0

namespace Host

/-- The home directory. An empty one is passed over. -/
def home (h : Host) : Option String := (h.environment.lookup "HOME").filter (· ≠ "")

def child? (h : Host) (pid : Nat) : Option Child := h.children.find? (·.pid = pid)

def isAlive (h : Host) (pid : Nat) : Bool := (h.child? pid).any (·.isAlive)

def change (h : Host) (pid : Nat) (f : Child → Child) : Host :=
  { h with children := h.children.map fun c => if c.pid = pid then f c else c }

def directoryOf (h : Host) (c : Command) : Except Fault Location :=
  match c.workDir with
  | none => .ok h.disk.workDir
  | some p => do
    let l ← h.disk.locate true p
    if h.disk.isDirAt l then .ok l else .error .notDirectory

def prepare (h : Host) (c : Command) : Except Fault Child := do
  let dir ← h.directoryOf c
  let image ← h.table.image h.disk (c.program :: c.args)
  let script : Shell.Script :=
    { pid := h.nextPid, table := h.table, plainEcho := image.plainEcho,
      here := { name := c.program, args := [], dir, vars := h.environment } }
  let (script, _) := script.enter h.disk image {}
  return { script, wakeAt := h.clock + 1 }

/-- Start a program. Only allowed ones are started. The answer is its number. -/
def start (h : Host) (c : Command) : Outcome Nat × Host :=
  if !c.isAllowed then (.error (.program (.notAllowed c.program)), h)
  else match h.prepare c with
    | .error fault => (.error (.program (.notStarted c.line fault)), h)
    | .ok child =>
      (.ok child.pid, { h with children := h.children ++ [child], nextPid := h.nextPid + 1 })

def kill (h : Host) (pid : Nat) : Host :=
  h.change pid fun c => if c.isAlive then { c with ending := some .killed } else c

/-- Read what a program has written. The answer is the lines that are complete by now. -/
def collect (h : Host) (pid : Nat) : List String × Host :=
  match h.child? pid with
  | none => ([], h)
  | some c =>
    let c := c.read
    (c.relay.queue, h.change pid fun _ => { c with relay := { c.relay with queue := [] } })

def nextToWake? (h : Host) : Option Child :=
  (h.children.filter (·.isAlive)).foldl (fun best c =>
    match best with
    | some b => if c.wakeAt < b.wakeAt then some c else best
    | none => some c) none

def sliceSteps : Nat := 100000

/-- Let time pass until the next program goes on, and let that run until it pauses. There is no
next program where all have ended. -/
def pass? (h : Host) : Option Host :=
  h.nextToWake?.map fun c =>
    let clock := max h.clock c.wakeAt
    let (script, disk, pause) := c.script.runSlice sliceSteps h.disk
    let c := match pause with
      | .sleeping n => { c with script, wakeAt := clock + max n 1 }
      | .ended e => { c with script, ending := some e }
    { h with disk, clock, children := h.children.map fun b => if b.pid = c.pid then c else b }

/-- Let time pass until a program has ended. The answer is its lines and its code. -/
def follow (pid : Nat) : (fuel : Nat) → Host → (List String × Option Int) × Host
  | 0, h => (([], none), h)
  | fuel + 1, h =>
    let (lines, h) := h.collect pid
    match (h.child? pid).bind Child.code? with
    | some code => ((lines, some code), h)
    | none =>
      match h.pass? with
      | none => ((lines, none), h)
      | some h =>
        let ((more, code), h) := follow pid fuel h
        ((lines ++ more, code), h)

end Host

end Workbench
