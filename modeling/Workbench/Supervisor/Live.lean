import Workbench.Host.Basic
import Workbench.Strategy.Basic
import Workbench.Supervisor.Stage
/-!
# A supervisor at work

A supervisor works on a host with a strategy. Several calls may be going on; each goes on as far
as it can, and time passes only while all of them wait. What programs write is added to the log
when it is read.
-/
namespace Workbench

/-- The work of a strategy for a call: what is left of its plan, and the program that it waits
for. -/
inductive Work where
  | building (plan : Plan Bool) (child : Option Nat)
  | serving (plan : Plan (Outcome Session)) (child : Option Nat)

/-- A call that is going on. -/
structure Call where
  id : Nat
  stage : Stage
  work : Option Work := none

namespace Call

def answer? (c : Call) : Option Bool :=
  match c.stage with
  | .done answer => some answer
  | _ => none

end Call

/-- A supervisor with the host and the strategy that it works with, and its calls, oldest
first. -/
structure Live where
  host : Host
  strategy : Strategy
  supervisor : Supervisor := {}
  calls : List Call := []
  nextCall : Nat := 0
  /-- Signals that were given and not yet noticed. -/
  signals : List String := []
  /-- The programs whose output goes to the log. -/
  watched : List Nat := []

namespace Live

def say (l : Live) (line : String) : Live := { l with supervisor := l.supervisor.line line }

def gather (l : Live) (pid : Nat) : Live :=
  let (lines, host) := l.host.collect pid
  lines.foldl say { l with host }

def onDisk (l : Live) (t : Task ε α) : Except ε α × Live :=
  let (result, disk) := t l.host.disk
  (result, { l with host := { l.host with disk } })

def launch (l : Live) (c : Command) : Outcome Nat × Live :=
  let (started, host) := l.host.start c
  let watched := match started with
    | .ok pid => l.watched ++ [pid]
    | .error _ => l.watched
  (started, { l with host, watched })

def listen (l : Live) (s : StaticServer) : Outcome (SocketAddress × Session) × Live :=
  let (bound, s, network) := s.start l.host.disk l.host.network
  (bound.map fun a => (a, .server s), { l with host := { l.host with network } })

def follow (l : Live) : Plan α → Option Nat → Live × Plan α × Option Nat
  | .done a, _ => (l, .done a, none)
  | .say line next, child => follow (l.say line) next child
  | .look p next, child => follow l (next (l.host.disk.isThere p)) child
  | .bundle job next, child =>
    let (report, l) := l.onDisk job.run
    follow l (next report) child
  | .run c next, none =>
    let (started, l) := l.launch c
    match started with
    -- the plan stays at this step while the program runs
    | .error e => follow l (next (.error e)) none
    | .ok pid => (l, .run c next, some pid)
  | .run c next, some pid =>
    match l.host.child? pid with
    | some child =>
      match child.code? with
      | some code => follow (l.gather pid) (next (.ok code)) none
      | none => (l.gather pid, .run c next, some pid)
    | none => (l, .run c next, some pid)
  | .launch c next, child =>
    let (started, l) := l.launch c
    follow l (next (started.map .program)) child
  | .listen s next, child =>
    let (bound, l) := l.listen s
    follow l (next bound) child
  | .await signal next, child =>
    if l.signals.contains signal then
      follow { l with signals := l.signals.erase signal } next child
    else (l, .await signal next, child)

def isLive (l : Live) : Session → Bool
  | .server s => s.isRunning l.host.network
  | .program pid => l.host.isAlive pid

/-- Stop a session. What a program has written is read to the end. -/
def tearDown (l : Live) : Session → Live
  | .server s =>
    let (_, network) := s.stop l.host.network
    { l with host := { l.host with network } }
  | .program pid => { l with host := l.host.kill pid }.gather pid

def workFor (l : Live) (c : Call) (need : Need) : Option Work :=
  match c.work, need with
  | some w, _ => some w
  | none, .built p => some (.building (l.strategy.build p) none)
  | none, .served p => some (.serving (l.strategy.serve p) none)
  | none, _ => none

/-- Go on with the work of a strategy. The answer is there when the plan is done. -/
def proceed (l : Live) : Work → Live × Option Outside × Work
  | .building plan child =>
    match l.follow plan child with
    | (l, .done success, child) =>
      (l, some { built := .finished success }, .building (.done success) child)
    | (l, plan, child) => (l, none, .building plan child)
  | .serving plan child =>
    match l.follow plan child with
    | (l, .done served, child) => (l, some { served }, .serving (.done served) child)
    | (l, plan, child) => (l, none, .serving plan child)

/-- The answer to what a stage needs, other than the work of a strategy. -/
def reply (l : Live) : Need → Live × Outside
  | .isThere p => (l, { holds := p.isThere l.host.disk })
  | .isLive s => (l, { holds := l.isLive s })
  | .stopped s => (l.tearDown s, {})
  | .kept p outcome message =>
    let record : BuildRecord :=
      ⟨l.host.clock / 1000, outcome, l.strategy.kind, message⟩
    ((l.onDisk (BuildRecord.save p.path record)).2, {})
  | .hasOutput p => (l, { holds := l.host.disk.isNonEmptyDir (l.strategy.outputDir p) })
  | _ => (l, {})

def isSlow : Need → Bool
  | .built _ | .kept _ _ _ | .hasOutput _ | .stopped _ => true
  | _ => false

def setCall (l : Live) (c : Call) : Live :=
  { l with calls := l.calls.map fun b => if b.id = c.id then c else b }

/-- One stage of a call. There is none if the call has to wait or has ended. -/
def stepCall (l : Live) (id : Nat) : Option Live × Live :=
  match l.calls.find? (·.id = id) with
  | none => (none, l)
  | some c =>
    let need := c.stage.need l.supervisor
    -- a strategy goes on with its plan; every other need is answered at once
    let (l, outside, work) : Live × Option Outside × Option Work :=
      match l.workFor c need with
      | some w =>
        let (l, outside, w) := l.proceed w
        (l, outside, some w)
      | none =>
        let (l, outside) := l.reply need
        (l, some outside, none)
    match outside with
    -- the plan has to wait, and what is left of it is kept
    | none => (none, l.setCall { c with work })
    | some outside =>
      match c.stage.advance id outside l.supervisor with
      | none => (none, l)
      | some (supervisor, stage) =>
        let l := { l with supervisor }.setCall { c with stage, work := none }
        (some l, l)

def stageLimit : Nat := 40

def advance (id : Nat) : (fuel : Nat) → Live → Live
  | 0, l => l
  | fuel + 1, l =>
    match l.stepCall id with
    | (some l, _) => advance id fuel l
    | (none, l) => l

def answer? (l : Live) (id : Nat) : Option Bool :=
  (l.calls.find? (·.id = id)).bind Call.answer?

/-- Go on with all calls but one, oldest first, and read what programs have written. -/
def round (l : Live) (except : Option Nat) : Live :=
  let l := l.watched.foldl gather l
  (l.calls.filter fun c => some c.id ≠ except).foldl (fun l c => advance c.id stageLimit l) l

/-- Let time pass, if a program is at work that could change anything. -/
def pass? (l : Live) : Option Live := l.host.pass?.map fun host => { l with host }

/-- Begin a call. The answer is its number. -/
def begin (l : Live) (r : Request) : Nat × Live :=
  (l.nextCall, { l with
    calls := l.calls ++ [{ id := l.nextCall, stage := r.stage }], nextCall := l.nextCall + 1 })

def forget (l : Live) (id : Nat) : Live := { l with calls := l.calls.filter (·.id ≠ id) }

/-- Whether a call is about to be answered something that other calls do not wait for. -/
def isAtSlow (l : Live) (id : Nat) : Bool :=
  (l.calls.find? (·.id = id)).any fun c => c.work.isNone && isSlow (c.stage.need l.supervisor)

/-- Go on with a call by a stage, or with the others while it waits. The answer is whether
anything was left to be done. -/
def turn (l : Live) (id : Nat) : Bool × Live :=
  -- an answer that takes time lets the other calls go first
  let l := if l.isAtSlow id then l.round (some id) else l
  match l.stepCall id with
  | (some l, _) => (true, l)
  | (none, l) =>
    match (l.round (some id)).stepCall id with
    | (some l, _) => (true, l)
    | (none, l) =>
      match l.pass? with
      | some l => (true, l)
      | none => (false, l)

/-- Go on with a call, and with the others while it waits, until it has ended. -/
def finish (id : Nat) : (fuel : Nat) → Live → Live
  | 0, l => l
  | fuel + 1, l =>
    if (l.answer? id).isSome then l
    else match l.turn id with
      | (true, l) => finish id fuel l
      | (false, l) => l

def patience : Nat := 20000

def call (l : Live) (r : Request) : Bool × Live :=
  let (id, l) := l.begin r
  let l := finish id patience l
  ((l.answer? id).getD false, l.forget id)

def passUntil (holds : Live → Bool) : (fuel : Nat) → Live → Live
  | 0, l => l
  | fuel + 1, l =>
    let l := l.round none
    if holds l then l
    else match l.pass? with
      | some l => passUntil holds fuel l
      | none => l

def waitUntil (holds : Live → Bool) (l : Live) : Live :=
  if holds l then l else passUntil holds patience l

end Live

end Workbench
