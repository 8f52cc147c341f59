import Workbench.Log.Basic
/-!
# The log on the console

While something is built or served, the user reads along in the log. A reader gets the lines one
by one; a reader that has fallen behind is told how many it missed. What is left when the work
ends is read out at once, up to the first gap. A server is watched by three readers in turn: one
while it comes up, one while it runs, and one while it is stopped.
-/
namespace Workbench.Console

/-- What the user is told of the log. -/
inductive Notice where
  | line (text : String)
  | skipped (lost : Nat)
  deriving DecidableEq, Repr

/-- A reader of the log: the number of the line that it gets next, and what it has told the
user, oldest first. -/
structure Echo where
  next : Nat
  told : List Notice := []
  deriving DecidableEq, Repr

namespace Echo

def ofNow (b : Broadcast) : Echo := ⟨b.sent, []⟩

def poll (e : Echo) (b : Broadcast) : Echo :=
  match b.receiveAt e.next with
  | (.line text, next) => ⟨next, e.told ++ [.line text]⟩
  | (.lagged lost, next) => ⟨next, e.told ++ [.skipped lost]⟩
  | (.empty, _) => e

/-- Read a line, if there is one; a gap is passed over in silence. -/
def pollQuietly (e : Echo) (b : Broadcast) : Echo :=
  match b.receiveAt e.next with
  | (.line text, next) => ⟨next, e.told ++ [.line text]⟩
  | (.lagged _, next) => { e with next }
  | (.empty, _) => e

def catchUp (e : Echo) (b : Broadcast) : Echo := Nat.repeat (poll · b) (b.kept.length + 1) e

/-- Read on, over gaps in silence, until there is nothing to be read. -/
def catchUpQuietly (e : Echo) (b : Broadcast) : Echo :=
  Nat.repeat (pollQuietly · b) (b.kept.length + 1) e

/-- Read lines up to the first gap, or to the end. The first argument bounds their number. -/
def drainWithin (b : Broadcast) : Nat → Echo → Echo
  | 0, e => e
  | n + 1, e =>
    match b.receiveAt e.next with
    | (.line text, next) => drainWithin b n ⟨next, e.told ++ [.line text]⟩
    | _ => e

/-- Read what is left when the work has ended, up to the first gap. -/
def drain (e : Echo) (b : Broadcast) : Echo := drainWithin b b.kept.length e

/-- What can happen while work goes on: a line is logged, or the reader has its turn. -/
inductive Event where
  | logged (text : String)
  | turn
  deriving DecidableEq, Repr

def step : Log × Echo → Event → Log × Echo
  | (log, e), .logged text => (log.line text, e)
  | (log, e), .turn => (log, e.poll log.live)

/-- What the user is told of the log while work goes on, from its beginning to its end. -/
def watch (log : Log) (events : List Event) : Log × Echo :=
  let (log, e) := events.foldl step (log, ofNow log.live)
  (log, e.drain log.live)

end Echo

/-- How far the watching of a server has come. Between two readers nobody reads. -/
inductive Watch where
  | starting (e : Echo)
  | started
  | serving (e : Echo)
  | interrupted
  | stopping (e : Echo)
  | ended
  deriving DecidableEq, Repr

namespace Watch

/-- What can happen while a server is watched: a line is logged, the reader has its turn, or the
watching goes over to its next part. -/
inductive Event where
  | logged (text : String)
  | turn
  | proceed
  deriving DecidableEq, Repr

/-- The next part of the watching, and what the user was told in the part that ends. -/
def proceed (b : Broadcast) : Watch → Watch × List Notice
  | .starting e => (.started, (e.drain b).told)
  | .started => (.serving (.ofNow b), [])
  | .serving e => (.interrupted, e.told)
  | .interrupted => (.stopping (.ofNow b), [])
  | .stopping e => (.ended, (e.drain b).told)
  | .ended => (.ended, [])

def turn (b : Broadcast) : Watch → Watch
  | .starting e => .starting (e.poll b)
  | .serving e => .serving (e.pollQuietly b)
  | .stopping e => .stopping (e.poll b)
  | w => w

/-- The log, the watching, and what the user was told in the parts that have ended. -/
structure State where
  log : Log
  watch : Watch
  told : List Notice := []
  deriving DecidableEq, Repr

def State.step (s : State) : Event → State
  | .logged text => { s with log := s.log.line text }
  | .turn => { s with watch := s.watch.turn s.log.live }
  | .proceed =>
    let (watch, told) := s.watch.proceed s.log.live
    { s with watch, told := s.told ++ told }

def run (log : Log) (events : List Event) : State :=
  events.foldl State.step { log, watch := .starting (.ofNow log.live) }

end Watch

end Workbench.Console
