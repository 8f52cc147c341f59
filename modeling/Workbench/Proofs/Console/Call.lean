import Workbench.Console.Run
import Workbench.Proofs.Console.Watch
import Workbench.Proofs.Supervisor.Lines
/-!
# What a call shows

While a call goes on, the program reads along in the log. It has its turns when the call has come
on by a step, and what it shows is what a reader with such turns tells. A run that serves a project
watches the server in the parts that there are for this, but goes over from one reader to the next at
once.
-/
namespace Workbench

namespace Console

open Echo (logged)

/-- The log of the events, apart from its reader. -/
theorem Echo.foldl_fst (events : List Event) (log : Log) (e : Echo) :
    (events.foldl step (log, e)).1 = log.lines (logged events) := by
  induction events generalizing log e with
  | nil => rfl
  | cons event events ih =>
    cases event with
    | logged text => exact ih (log.line text) e
    | turn => exact ih log (e.poll log.live)

/-- While a call goes on, its log and its reader go through some events. -/
theorem Attended.finish_events (id fuel : Nat) (a : Attended) : ∃ events : List Echo.Event,
    events.foldl Echo.step (a.live.supervisor.log, a.echo) =
      ((a.finish id fuel).live.supervisor.log, (a.finish id fuel).echo) := by
  induction fuel generalizing a with
  | zero => exact ⟨[], rfl⟩
  | succ fuel ih =>
    obtain ⟨lines, added⟩ := a.live.turn_adds id
    unfold finish
    split
    next => exact ⟨[], rfl⟩
    next =>
      split
      next live equal =>
        -- what was added in the turn is read at its end
        rw [equal] at added
        obtain ⟨events, later⟩ := ih ({ a with live } : Attended).catchUp
        refine ⟨Echo.burst lines ++
          List.replicate (live.supervisor.log.live.kept.length + 1) .turn ++ events, ?_⟩
        rw [List.foldl_append, List.foldl_append, Echo.foldl_burst, ← added, Echo.foldl_turns]
        exact later
      next live equal =>
        rw [equal] at added
        exact ⟨Echo.burst lines, by rw [Echo.foldl_burst, ← added]⟩

/-- What a call shows is what a reader of the log tells, for some turns between the lines that the
call adds to the log. -/
theorem call_watches (live : Live) (r : Request) (s : Station) : ∃ events answer live',
    call live r s = (.ok (answer, live'), { s with
      host := live'.host
      screen := (Echo.watch live.supervisor.log events).2.told.foldl Screen.notice s.screen }) ∧
    live'.supervisor.log = live.supervisor.log.lines (logged events) := by
  obtain ⟨events, reached⟩ := Attended.finish_events live.nextCall Live.patience
    ⟨(live.begin r).2, .ofNow live.supervisor.log.live⟩
  have logs := Echo.foldl_fst events live.supervisor.log (.ofNow live.supervisor.log.live)
  have begun : (live.begin r).2.supervisor = live.supervisor := rfl
  rw [begun] at reached
  rw [reached] at logs
  refine ⟨events, _, _, Prod.ext rfl ?_, logs⟩
  rw [Echo.watch_snd, Echo.reading, reached]
  rfl

namespace Watch

variable {log : Log} {told : List Notice}

/-- While the server comes up or is stopped, somebody reads as while other work goes on. -/
theorem foldl_reading {role : Echo → Watch} (turns : ∀ e b, (role e).turn b = role (e.poll b))
    (e : Echo) (events : List Echo.Event) :
    (events.map Event.within).foldl State.step ⟨log, role e, told⟩ =
      ⟨(events.foldl Echo.step (log, e)).1, role (events.foldl Echo.step (log, e)).2, told⟩ := by
  induction events generalizing log e with
  | nil => rfl
  | cons event events ih =>
    cases event with
    | logged text => exact ih e
    | turn =>
      rw [List.map_cons, List.foldl_cons, Event.within, State.step]
      dsimp only
      rw [turns]
      exact ih (e.poll log.live)

/-- A part that is read to its end shows what is told while other work goes on. -/
theorem foldl_part_of_reading {role : Echo → Watch} {next : Watch}
    (turns : ∀ e b, (role e).turn b = role (e.poll b))
    (drained : ∀ e b, (role e).proceed b = (next, (e.drain b).told)) (events : List Echo.Event) :
    (part events).foldl State.step ⟨log, role (.ofNow log.live), told⟩ =
      ⟨log.lines (logged events), next, told ++ (Echo.watch log events).2.told⟩ := by
  rw [foldl_part, foldl_reading turns, State.step]
  dsimp only
  rw [drained, Echo.watch_snd, Echo.reading, Echo.foldl_fst]

/-- Lines that are logged while the server runs, and then so many turns. -/
def readLate (lines : List String) (turns : Nat) : List Echo.Event :=
  Echo.burst lines ++ List.replicate turns .turn

theorem logged_readLate (lines : List String) (turns : Nat) :
    logged (readLate lines turns) = lines := by
  have silent : logged (List.replicate turns .turn) = [] := by simp [logged]
  rw [readLate, logged, List.filterMap_append]
  change logged (Echo.burst lines) ++ logged (List.replicate turns .turn) = lines
  rw [Echo.logged_burst, silent, List.append_nil]

theorem foldl_readLate (e : Echo) (lines : List String) (turns : Nat) :
    ((readLate lines turns).map Event.within).foldl State.step ⟨log, .serving e, told⟩ =
      ⟨log.lines lines, .serving (Nat.repeat (Echo.pollQuietly · (log.lines lines).live) turns e),
        told⟩ := by
  have late (log : Log) : ((List.replicate turns Echo.Event.turn).map Event.within).foldl State.step
      ⟨log, .serving e, told⟩ =
        ⟨log, .serving (Nat.repeat (Echo.pollQuietly · log.live) turns e), told⟩ := by
    induction turns with
    | zero => rfl
    | succ turns ih =>
      rw [List.replicate_succ', List.map_append, List.foldl_append, ih]
      rfl
  rw [readLate, List.map_append, List.foldl_append]
  -- the lines come before the reader has had a turn
  have early : ((Echo.burst lines).map Event.within).foldl State.step ⟨log, .serving e, told⟩ =
      ⟨log.lines lines, .serving e, told⟩ := by
    clear late
    induction lines generalizing log with
    | nil => rfl
    | cons text lines ih => exact ih
  rw [early, late]

/-- The watching of a run that goes over from one reader to the next at once, and whose second reader
gets its turns only when the user interrupts. -/
def direct (starting : List Echo.Event) (lines : List String) (turns : Nat)
    (stopping : List Echo.Event) : Course :=
  ⟨starting, [], readLate lines turns, [], stopping⟩

theorem told_direct (log : Log) (starting stopping : List Echo.Event) (lines : List String)
    (turns : Nat) :
    let up := log.lines (logged starting)
    (run log (direct starting lines turns stopping).events).told =
      (Echo.watch log starting).2.told ++
        ((Nat.repeat (Echo.pollQuietly · (up.lines lines).live) turns (.ofNow up.live)).told ++
          (Echo.watch (up.lines lines) stopping).2.told) := by
  intro up
  have first : (part starting).foldl State.step (.initial log) =
      ⟨up, .started, (Echo.watch log starting).2.told⟩ :=
    @foldl_part_of_reading log [] .starting .started (fun _ _ => rfl) (fun _ _ => rfl) starting
  let e := Nat.repeat (Echo.pollQuietly · (up.lines lines).live) turns (.ofNow up.live)
  have second : (part (readLate lines turns)).foldl State.step
      ⟨up, .serving (.ofNow up.live), (Echo.watch log starting).2.told⟩ =
        ⟨up.lines lines, .interrupted, (Echo.watch log starting).2.told ++ e.told⟩ := by
    rw [foldl_part, foldl_readLate]
    rfl
  have third := @foldl_part_of_reading (up.lines lines) ((Echo.watch log starting).2.told ++ e.told)
    .stopping .ended (fun _ _ => rfl) (fun _ _ => rfl) stopping
  -- nothing but the next reader comes between two parts in which somebody reads
  have unread (s : State) : (part []).foldl State.step s = s.step .proceed := rfl
  rw [run_eq, Course.events, direct]
  simp only [List.foldl_append, unread]
  rw [first]
  simp only [State.step, proceed, List.append_nil]
  rw [second, List.append_nil, third, List.append_assoc]

end Watch

/-- A project is served if it is running after the call. -/
theorem serve_eq (live : Live) (p : Project) (s s₁ : Station) (answer : Bool) (live₁ : Live)
    (called : call live (.run p) s = (.ok (answer, live₁), s₁)) :
    serve live p s =
      if answer then (.ok ⟨live₁, .ofNow live₁.supervisor.log.live⟩,
        { s₁ with screen := s₁.screen.printLine "Press Ctrl-C to stop" })
      else (.error (.notRunning p.name), s₁) := by
  simp only [serve, bind, ExceptT.bind, ExceptT.mk, StateT.bind, called]
  cases answer <;> rfl

/-- What a run that serves a project shows of the log, up to its end and with whatever lines are
logged before it is interrupted, is shown in a course of the watching in which nothing is logged
between two readers. -/
theorem serve_watches (live : Live) (p : Project) (s s' : Station) (a a' : Attended)
    (served : serve live p s = (.ok a, s')) (lines : List String) (reader : a'.echo = a.echo)
    (grown : a'.live.supervisor.log = a.live.supervisor.log.lines lines) :
    ∃ (c : Watch.Course) (early late : List Notice),
      c.started = [] ∧ logged c.serving = lines ∧ c.interrupted = [] ∧
      (Watch.run live.supervisor.log c.events).told = early ++ late ∧
      s'.screen = (early.foldl Screen.notice s.screen).printLine "Press Ctrl-C to stop" ∧
      (interrupt a' s').screen = late.foldl Screen.notice s'.screen := by
  obtain ⟨events, answer, live₁, called, log₁⟩ := call_watches live (.run p) s
  rw [serve_eq live p s _ answer live₁ called] at served
  split at served
  next =>
    obtain ⟨is, station⟩ := Prod.mk.inj served
    obtain rfl := Except.ok.inj is
    dsimp only at reader grown
    -- the log at the interrupt, and what is read of it then
    let log := live₁.supervisor.log.lines lines
    let turns := log.live.kept.length + 1
    let e := Nat.repeat (Echo.pollQuietly · log.live) turns (.ofNow live₁.supervisor.log.live)
    have caught : a'.echo.catchUpQuietly a'.sent = e := by
      rw [reader, Attended.sent, grown]
      rfl
    obtain ⟨events', answer', live₂, stopped, -⟩ := call_watches a'.live .stop
      { s' with screen := e.told.foldl Screen.notice s'.screen }
    let first := (Echo.watch live.supervisor.log events).2.told
    let last := (Echo.watch log events').2.told
    refine ⟨Watch.direct events lines turns events', first, e.told ++ last, rfl,
      Watch.logged_readLate lines turns, rfl, ?_, by rw [← station], ?_⟩
    · -- the log at the interrupt is that of the course after its third part
      have told := Watch.told_direct live.supervisor.log events events' lines turns
      rwa [← log₁] at told
    · rw [interrupt, caught, stopped, List.foldl_append]
      dsimp only
      rw [grown]
  next => cases served

end Console

end Workbench
