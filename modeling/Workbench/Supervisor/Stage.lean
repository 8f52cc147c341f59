import Workbench.Supervisor.Basic
/-!
# Calls of a supervisor

Several calls may be going on at once. Each is a sequence of stages, and what happens within one
stage is not interrupted by other calls. At some stages a call needs an answer from outside: how
a build ended, whether a session is still alive.
-/
namespace Workbench

/-- What a supervisor can be asked to do. -/
inductive Request where
  | build (p : Project)
  | run (p : Project)
  | stop
  | isRunning
  deriving DecidableEq, Repr

/-- How the building of a project ended. -/
inductive BuildEnd where
  | finished (success : Bool)
  | crashed (why : String)
  deriving DecidableEq, Repr

/-- How far the removal of a session that has ended has come. -/
inductive Reaping where
  | lock
  | inspect
  | tearDown (s : Session)
  | settle (trouble : Option Error)
  | release
  deriving DecidableEq, Repr

/-- How far a build has come. -/
inductive Building where
  | look
  | reap (r : Reaping)
  | enter
  | find
  | work
  | wrap (success : Bool)
  | keep (success : Bool)
  | publish (success : Bool)
  deriving DecidableEq, Repr

/-- How far the serving of a project has come. -/
inductive Serving where
  | look
  | lock
  | take
  | replace (s : Session)
  | settle (trouble : Option Error)
  | check
  | serve
  | adopt (s : Session)
  | store (s : Session)
  | drop (s : Session)
  | giveUp (trouble : Option Error)
  | fail (e : Error)
  | release (running : Bool)
  deriving DecidableEq, Repr

/-- How far stopping has come. -/
inductive Stopping where
  | lock
  | take
  | tearDown (s : Session)
  | settle (trouble : Option Error)
  | publish
  | release
  deriving DecidableEq, Repr

/-- How far the question has come whether a session is alive. -/
inductive Asking where
  | reap (r : Reaping)
  | lock
  | answer
  deriving DecidableEq, Repr

/-- How far a call has come. -/
inductive Stage where
  | build (p : Project) (b : Building)
  | run (p : Project) (r : Serving)
  | stop (s : Stopping)
  | isRunning (a : Asking)
  | done (answer : Bool)
  deriving DecidableEq, Repr

/-- What a stage needs from outside. -/
inductive Need where
  | nothing
  | isThere (p : Project)
  | isLive (s : Session)
  | stopped (s : Session)
  | built (p : Project)
  | kept (p : Project) (outcome : BuildOutcome) (message : String)
  | hasOutput (p : Project)
  | served (p : Project)
  deriving DecidableEq, Repr

/-- Answers from outside. A stage uses the one that it needs. -/
structure Outside where
  holds : Bool := false
  trouble : Option Error := none
  built : BuildEnd := .finished false
  served : Outcome Session := .error (.refused .noProjectOpen)

def Request.stage : Request → Stage
  | .build p => .build p .look
  | .run p => .run p .look
  | .stop => .stop .lock
  | .isRunning => .isRunning (.reap .lock)

namespace Building

def successMessage : String := "Build completed successfully"

def failureMessage : String := "Build failed"

def status (success : Bool) : Status :=
  if success then .success successMessage else .error failureMessage

def outcome (success : Bool) : BuildOutcome := if success then .success else .failed

end Building

namespace Reaping

def need (s : Supervisor) : Reaping → Need
  | .inspect =>
    match s.slot with
    | some session => .isLive session
    | none => .nothing
  | .tearDown session => .stopped session
  | _ => .nothing

/-- The next stage of the removal; none after the last, and no step while the lock is taken. -/
def advance (me : Nat) (o : Outside) (s : Supervisor) :
    Reaping → Option (Supervisor × Option Reaping)
  | .lock => if s.holder.isNone then some ({ s with holder := some me }, some .inspect) else none
  | .inspect =>
    match s.slot with
    | some session =>
      -- a session that is alive is left where it is
      if o.holds then some (s, some .release)
      else some ({ s with slot := none }, some (.tearDown session))
    | none => some (s, some .release)
  | .tearDown _ => some (s, some (.settle o.trouble))
  | .settle trouble =>
    let s := (s.noteStop trouble).line "Error: dev server exited"
    some (s.publishIf Status.isRunning (.error "dev server exited"), some .release)
  | .release => some (s.release, none)

end Reaping

namespace Building

def need (s : Supervisor) (p : Project) : Building → Need
  | .reap r => r.need s
  | .find | .wrap _ => .isThere p
  | .work => .built p
  | .keep success => .kept p (outcome success) ((status success).message?.getD "")
  | _ => .nothing

def advance (me : Nat) (o : Outside) (s : Supervisor) (p : Project) :
    Building → Option (Supervisor × Stage)
  -- a session that has ended by itself must not keep the project from being built
  | .look => some (s, .build p (if s.status.value.isRunning then .reap .lock else .enter))
  | .reap r => (r.advance me o s).map fun (s, next) =>
    (s, .build p (match next with
      | some r => .reap r
      | none => .enter))
  | .enter =>
    -- the status is tested and changed in one step, so that no two builds are accepted
    if s.status.value.isBusy then
      some (s.line ("Build rejected: project is " ++ s.status.value.text), .done false)
    else some (s.publishIf (fun _ => true) .building, .build p .find)
  | .find =>
    if o.holds then some (s, .build p .work)
    else some (s.line ("Error: project directory not found: " ++ p.path.text),
      .build p (.wrap false))
  | .work =>
    match o.built with
    | .finished success => some (s, .build p (.wrap success))
    | .crashed why => some (s.line ("Error: build task failed: " ++ why), .build p (.wrap false))
  | .wrap success =>
    some (s, .build p (if o.holds then .keep success else .publish success))
  | .keep success => some (s, .build p (.publish success))
  | .publish success =>
    -- published only if the status still says that a build is going on
    some (s.publishIf Status.isBuilding (status success), .done success)

end Building

namespace Serving

/-- The line that says why a project is not served while it is built. -/
def refusal : String := "Run rejected: a build is in progress"

def need (p : Project) : Serving → Need
  | .replace session | .drop session => .stopped session
  | .check => .hasOutput p
  | .serve => .served p
  | _ => .nothing

def advance (me : Nat) (o : Outside) (s : Supervisor) (p : Project) :
    Serving → Option (Supervisor × Stage)
  | .look =>
    if s.status.value.isBuilding then some (s.line refusal, .done false)
    else some (s, .run p .lock)
  | .lock => if s.holder.isNone then some ({ s with holder := some me }, .run p .take) else none
  | .take =>
    match s.slot with
    | some session => some ({ s with slot := none }, .run p (.replace session))
    | none => some (s, .run p .check)
  | .replace _ => some (s, .run p (.settle o.trouble))
  | .settle trouble =>
    -- the session that the status told of is gone, but a build may go on
    some ((s.noteStop trouble).publishIf Status.isRunning .idle, .run p .check)
  | .check =>
    if o.holds then some (s, .run p .serve)
    else some (s.line "No build found. Please run Build first.", .run p (.release false))
  | .serve =>
    match o.served with
    | .ok session => some (s, .run p (.adopt session))
    | .error e => some (s, .run p (.fail e))
  | .adopt session =>
    -- a build may have been accepted while the session came up
    if s.status.value.isBuilding then some (s, .run p (.drop session))
    else some (s.publishIf (fun _ => true) .running, .run p (.store session))
  | .store session => some ({ s with slot := some session }, .run p (.release true))
  | .drop _ => some (s, .run p (.giveUp o.trouble))
  | .giveUp trouble => some ((s.noteStop trouble).line refusal, .run p (.release false))
  | .fail e =>
    -- the error must not cover a build that goes on
    let s := s.line ("Error starting server: " ++ e.message)
    some (s.publishIf (!·.isBuilding) (.error e.message), .run p (.release false))
  | .release running => some (s.release, .done running)

end Serving

namespace Stopping

def need : Stopping → Need
  | .tearDown session => .stopped session
  | _ => .nothing

def clears : Status → Bool
  | .building | .idle => false
  | _ => true

def advance (me : Nat) (o : Outside) (s : Supervisor) : Stopping → Option (Supervisor × Stage)
  | .lock => if s.holder.isNone then some ({ s with holder := some me }, .stop .take) else none
  | .take =>
    match s.slot with
    | some session => some ({ s with slot := none }, .stop (.tearDown session))
    | none => some (s, .stop .publish)
  | .tearDown _ => some (s, .stop (.settle o.trouble))
  | .settle trouble => some ((s.noteStop trouble).line "Server stopped", .stop .publish)
  | .publish => some (s.publishIf clears .idle, .stop .release)
  | .release => some (s.release, .done true)

end Stopping

namespace Asking

def need (s : Supervisor) : Asking → Need
  | .reap r => r.need s
  | _ => .nothing

def advance (me : Nat) (o : Outside) (s : Supervisor) : Asking → Option (Supervisor × Stage)
  | .reap r => (r.advance me o s).map fun (s, next) =>
    (s, .isRunning (match next with
      | some r => .reap r
      | none => .lock))
  | .lock => if s.holder.isNone then some ({ s with holder := some me }, .isRunning .answer) else none
  | .answer => some (s.release, .done s.slot.isSome)

end Asking

namespace Stage

def need (s : Supervisor) : Stage → Need
  | .build p b => b.need s p
  | .run p r => r.need p
  | .stop t => t.need
  | .isRunning a => a.need s
  | .done _ => .nothing

/-- The next stage of the call `me`, with the answer from outside; none while it has to wait for
the lock, and none after the last stage. -/
def advance (me : Nat) (o : Outside) (s : Supervisor) : Stage → Option (Supervisor × Stage)
  | .build p b => b.advance me o s p
  | .run p r => r.advance me o s p
  | .stop t => t.advance me o s
  | .isRunning a => a.advance me o s
  | .done _ => none

end Stage

end Workbench
