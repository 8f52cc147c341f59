import Mathlib.Logic.Function.Basic
import Mathlib.Logic.Relation
import Workbench.Project.BuildRecord
import Workbench.Proofs.Supervisor.Hold

/-! A supervisor among its calls. Any number of calls take turns in any order; between two turns
sessions may end by themselves, and other programs may write to the disk and to the log. Whatever
order they come in, the lock belongs to the call whose stage holds it, and nobody keeps it for
ever. -/
namespace Workbench

namespace Stage

/-- What a call was asked, until it has ended. -/
def request? : Stage → Option Request
  | .build p _ => some (.build p)
  | .run p _ => some (.run p)
  | .stop _ => some .stop
  | .isRunning _ => some .isRunning
  | .done _ => none

/-- A call carries out what it was asked until it has ended. -/
theorem request_of_advance (me : Nat) (o : Outside) (s s' : Supervisor) (stage next : Stage)
    (moved : stage.advance me o s = some (s', next)) :
    next.request? = stage.request? ∨ ∃ answer, next = .done answer := by
  cases stage with
  | build p b =>
    simp only [advance] at moved
    cases b with
    | reap r =>
      obtain ⟨_, -, same⟩ := Option.map_eq_some_iff.mp moved
      cases same
      exact .inl rfl
    | enter | find | work | wrap =>
      simp only [Building.advance] at moved
      split at moved <;> cases moved
      all_goals first | exact .inl rfl | exact .inr ⟨_, rfl⟩
    | look | keep =>
      cases moved
      exact .inl rfl
    | publish success =>
      cases moved
      exact .inr ⟨success, rfl⟩
  | run p r =>
    simp only [advance] at moved
    cases r with
    | look | lock | take | check | serve | adopt =>
      simp only [Serving.advance] at moved
      split at moved <;> cases moved
      all_goals first | exact .inl rfl | exact .inr ⟨_, rfl⟩
    | replace | settle | store | drop | giveUp | fail =>
      cases moved
      exact .inl rfl
    | release running =>
      cases moved
      exact .inr ⟨running, rfl⟩
  | stop t =>
    simp only [advance] at moved
    cases t with
    | lock | take =>
      simp only [Stopping.advance] at moved
      split at moved <;> cases moved
      all_goals exact .inl rfl
    | tearDown | settle | publish =>
      cases moved
      exact .inl rfl
    | release =>
      cases moved
      exact .inr ⟨true, rfl⟩
  | isRunning a =>
    simp only [advance] at moved
    cases a with
    | reap r =>
      obtain ⟨_, -, same⟩ := Option.map_eq_some_iff.mp moved
      cases same
      exact .inl rfl
    | lock =>
      simp only [Asking.advance] at moved
      split at moved <;> cases moved
      exact .inl rfl
    | answer =>
      cases moved
      exact .inr ⟨_, rfl⟩
  | done answer => cases moved

end Stage

/-- Something that happened to the disk or in a call, with the disk before and after it. -/
inductive Event where
  | turn (id : Nat) (stage : Stage) (o : Outside) (before after : Disk)
  | other (before after : Disk)

namespace Need

/-- The disk after a need was answered. A record is written at some time. -/
def disk (kind : StrategyKind) (time : Int) (d : Disk) : Need → Disk
  | .kept p outcome message => (BuildRecord.save p.path ⟨time, outcome, kind, message⟩ d).2
  | _ => d

/-- The sessions that are alive after a need was answered. Stopping ends the session that it is
given. -/
def live (o : Outside) (live : List Session) : Need → List Session
  | .stopped session => live.erase session
  | .served _ =>
    match o.served with
    | .ok session => session :: live
    | .error _ => live
  | _ => live

/-- Whether a project is there is answered as it is. Nothing is asked of other answers. -/
def IsTrue (o : Outside) (d : Disk) : Need → Prop
  | .isThere p => o.holds = p.isThere d
  | _ => True

instance (o : Outside) (d : Disk) : (need : Need) → Decidable (need.IsTrue o d)
  | .isThere p => inferInstanceAs (Decidable (o.holds = p.isThere d))
  | .nothing | .isLive _ | .stopped _ | .built _ | .kept _ _ _ | .hasOutput _ | .served _ =>
    .isTrue trivial

/-- Every need can be answered truly. -/
theorem exists_isTrue (need : Need) (d : Disk) : ∃ o, need.IsTrue o d := by
  cases need with
  | isThere p => exact ⟨{ holds := p.isThere d }, rfl⟩
  | _ => exact ⟨{}, trivial⟩

end Need

/-- A supervisor, how far each of its calls has come, and what is around it. -/
structure World where
  supervisor : Supervisor
  calls : Nat → Option Stage
  disk : Disk
  /-- The sessions that were served and have neither been stopped nor ended by themselves. -/
  live : List Session
  /-- What has happened, newest first. -/
  past : List Event

namespace World

/-- A supervisor without calls. -/
def start (log : Log) (disk : Disk) : World where
  supervisor := { log }
  calls := fun _ => none
  disk
  live := []
  past := []

/-- A call begins. -/
def begin (w : World) (id : Nat) (r : Request) : World :=
  { w with calls := Function.update w.calls id (some r.stage) }

/-- A call has gone on from a stage to the next. -/
def turned (w : World) (kind : StrategyKind) (id : Nat) (stage : Stage) (o : Outside) (time : Int)
    (supervisor : Supervisor) (next : Stage) : World :=
  let need := stage.need w.supervisor
  let disk := need.disk kind time w.disk
  { supervisor
    calls := Function.update w.calls id (some next)
    disk
    live := need.live o w.live
    past := .turn id stage o w.disk disk :: w.past }

/-- Other programs have written to the log and to the disk. -/
def written (w : World) (log : Log) (disk : Disk) : World :=
  { w with
    supervisor := { w.supervisor with log }
    disk
    past := .other w.disk disk :: w.past }

/-- What can happen next. How a build ends, whether a session is served or is found alive, and
whether there is something to serve, is left open. -/
inductive Step (kind : StrategyKind) : World → World → Prop where
  | begin (w : World) (id : Nat) (r : Request) (unused : w.calls id = none) :
      Step kind w (w.begin id r)
  | turn (w : World) (id : Nat) (stage next : Stage) (o : Outside) (time : Int)
      (supervisor : Supervisor) (under : w.calls id = some stage)
      (truly : (stage.need w.supervisor).IsTrue o w.disk)
      (moved : stage.advance id o w.supervisor = some (supervisor, next)) :
      Step kind w (w.turned kind id stage o time supervisor next)
  | exit (w : World) (session : Session) : Step kind w { w with live := w.live.erase session }
  | other (w : World) (log : Log) (disk : Disk) : Step kind w (w.written log disk)

/-- What can come about from a supervisor without calls. -/
inductive Reachable (kind : StrategyKind) : World → Prop where
  | start (log : Log) (disk : Disk) : Reachable kind (start log disk)
  | next (w w' : World) (reached : Reachable kind w) (step : Step kind w w') : Reachable kind w'

/-- A choice of what happens next. -/
inductive Move where
  | begin (id : Nat) (r : Request)
  | turn (id : Nat) (o : Outside) (time : Int)
  | exit (session : Session)
  | other (log : Log) (disk : Disk)

/-- What a choice leads to, if it is open. -/
def after? (kind : StrategyKind) (w : World) : Move → Option World
  | .begin id r => if (w.calls id).isNone then some (w.begin id r) else none
  | .turn id o time =>
    match w.calls id with
    | none => none
    | some stage =>
      if (stage.need w.supervisor).IsTrue o w.disk then
        (stage.advance id o w.supervisor).map fun (supervisor, next) =>
          w.turned kind id stage o time supervisor next
      else none
  | .exit session => some { w with live := w.live.erase session }
  | .other log disk => some (w.written log disk)

/-- What a sequence of choices leads to, if each is open when it comes. -/
def play? (kind : StrategyKind) (w : World) (moves : List Move) : Option World :=
  moves.foldlM (after? kind) w

/-- How a call stands to the session. -/
def hold (w : World) (id : Nat) : Hold := ((w.calls id).map Stage.hold).getD .free

/-- How the call that holds the lock stands to the session. -/
def holding (w : World) : Hold :=
  match w.supervisor.holder with
  | some id => w.hold id
  | none => .free

/-- The lock belongs to the call whose stage holds it, and the session is as that call relies
on. -/
structure Guarded (w : World) : Prop where
  lock : ∀ id, w.supervisor.holder = some id ↔ (w.hold id).holds = true
  fits : w.holding.Fits w.supervisor

/-- What a step leaves of a call that neither begins nor goes on: the call stays where it is, and
what is new in the past is none of its turns. -/
structure Spares (me : Nat) (news : List Event) (w w' : World) : Prop where
  calls : w'.calls me = w.calls me
  past : w'.past = news ++ w.past
  others : ∀ stage o before after, .turn me stage o before after ∉ news

/-- A step from the side of one call: it begins, it goes on, or it is spared. -/
inductive Sees (kind : StrategyKind) (me : Nat) (w : World) : World → Prop where
  | begun (r : Request) (unused : w.calls me = none) : Sees kind me w (w.begin me r)
  | turned (stage next : Stage) (o : Outside) (time : Int) (s : Supervisor)
      (under : w.calls me = some stage) (truly : (stage.need w.supervisor).IsTrue o w.disk)
      (moved : stage.advance me o w.supervisor = some (s, next)) :
      Sees kind me w (w.turned kind me stage o time s next)
  | spared (news : List Event) (w' : World) (spares : Spares me news w w') : Sees kind me w w'

variable {kind : StrategyKind} {w w' : World}

theorem calls_begin (id : Nat) (r : Request) : (w.begin id r).calls id = some r.stage := by
  simp [begin]

theorem calls_turned (id : Nat) (stage next : Stage) (o : Outside) (time : Int) (s : Supervisor) :
    (w.turned kind id stage o time s next).calls id = some next := by
  simp [turned]

theorem past_turned (id : Nat) (stage : Stage) (o : Outside) (time : Int) (s : Supervisor)
    (next : Stage) : (w.turned kind id stage o time s next).past =
      .turn id stage o w.disk (w.turned kind id stage o time s next).disk :: w.past := by
  simp only [turned]

theorem Step.sees (step : Step kind w w') (me : Nat) : Sees kind me w w' := by
  cases step with
  | begin id r unused =>
    by_cases same : id = me
    · subst same
      exact .begun r unused
    · exact .spared [] _ ⟨by simp [World.begin, Ne.symm same], rfl, fun _ _ _ _ => List.not_mem_nil⟩
  | turn id stage next o time s under truly moved =>
    by_cases same : id = me
    · subst same
      exact .turned stage next o time s under truly moved
    · let w1 := w.turned kind id stage o time s next
      refine .spared [.turn id stage o w.disk w1.disk] w1
        ⟨by simp [w1, World.turned, Ne.symm same], past_turned id stage o time s next,
          fun _ _ _ _ member => ?_⟩
      cases List.mem_singleton.mp member
      exact same rfl
  | exit session => exact .spared [] _ ⟨rfl, rfl, fun _ _ _ _ => List.not_mem_nil⟩
  | other log disk => exact .spared [.other w.disk disk] _ ⟨rfl, rfl, by simp⟩

section

variable {me : Nat} {news : List Event} {stage : Stage}

theorem Spares.turns (spares : Spares me news w w') (stage : Stage) (o : Outside)
    (before after : Disk) :
    .turn me stage o before after ∈ w'.past ↔ .turn me stage o before after ∈ w.past := by
  rw [spares.past, List.mem_append]
  exact or_iff_right (spares.others stage o before after)

theorem Spares.news_of_past (spares : Spares me news w w') (event : Event)
    (past : w'.past = event :: w.past) : news = [event] :=
  List.append_cancel_right (spares.past.symm.trans past)

/-- The turn of a call spares the others only. -/
theorem Spares.ne_of_turned (id : Nat) (next : Stage) (o : Outside) (time : Int) (s : Supervisor)
    (spares : Spares me news w (w.turned kind id stage o time s next)) : id ≠ me := by
  rintro rfl
  have news := spares.news_of_past _ (past_turned id stage o time s next)
  exact spares.others _ _ _ _ (news ▸ List.mem_cons_self)

/-- A call is where it was, or has taken a turn. -/
theorem Step.calls (step : Step kind w w') (under : w.calls me = some stage) :
    w'.calls me = some stage ∨ ∃ o time s next, stage.advance me o w.supervisor = some (s, next) ∧
      w' = w.turned kind me stage o time s next := by
  cases step.sees me with
  | begun r unused => cases unused.symm.trans under
  | turned stage' next o time s under' truly moved =>
    cases under'.symm.trans under
    exact .inr ⟨o, time, s, next, moved, rfl⟩
  | spared news w' spares => exact .inl (spares.calls.trans under)

end

theorem hold_turned (id : Nat) (stage : Stage) (o : Outside) (time : Int) (s : Supervisor)
    (next : Stage) (i : Nat) :
    (w.turned kind id stage o time s next).hold i = if i = id then next.hold else w.hold i := by
  by_cases same : i = id
  · simp [hold, turned, same]
  · simp [hold, turned, same]

theorem hold_begin (id : Nat) (r : Request) (unused : w.calls id = none) (i : Nat) :
    (w.begin id r).hold i = w.hold i := by
  by_cases same : i = id
  · subst same
    cases r <;> simp [hold, begin, unused] <;> rfl
  · simp [hold, begin, same]

theorem holding_begin (id : Nat) (r : Request) (unused : w.calls id = none) :
    (w.begin id r).holding = w.holding := by
  -- a call that begins does not hold the lock, and there was no such call before
  have same : (w.begin id r).hold = w.hold := funext (hold_begin id r unused)
  unfold holding
  rw [same]
  rfl

theorem hold_of_calls (id : Nat) (stage : Stage) (under : w.calls id = some stage) :
    w.hold id = stage.hold := by
  simp [hold, under]

theorem holding_of_held (id : Nat) (held : w.supervisor.holder = some id) :
    w.holding = w.hold id := by
  simp [holding, held]

theorem holding_of_unheld (unheld : w.supervisor.holder = none) : w.holding = .free := by
  simp [holding, unheld]

theorem Guarded.lock_turned (guarded : w.Guarded) (kind : StrategyKind) (id : Nat)
    (stage next : Stage) (o : Outside) (time : Int) (s : Supervisor)
    (under : w.calls id = some stage)
    (passes : Passes id (stage.need w.supervisor) o w.supervisor stage.hold s next.hold) (i : Nat) :
    s.holder = some i ↔ ((w.turned kind id stage o time s next).hold i).holds = true := by
  have owner := guarded.lock id
  have others := guarded.lock i
  rw [hold_of_calls id stage under] at owner
  rw [hold_turned]
  -- whether the call had the lock before its turn, and whether it has it afterwards
  cases before : stage.hold.holds <;> cases after : next.hold.holds
  · rw [passes.keeps (before.trans after.symm)]
    split
    next same => simp [same, owner, before, after]
    next => exact others
  · -- it can take the lock only from nobody, so that no other stage holds it
    obtain ⟨unheld, taken⟩ := passes.takes before after
    rw [taken]
    split
    next same => simp [same, after]
    next apart => simpa [unheld, Ne.symm apart] using others
  · rw [passes.gives before after]
    split
    next => simp [after]
    next apart => simpa [owner.mpr before, Ne.symm apart] using others
  · rw [passes.keeps (before.trans after.symm)]
    split
    next same => simp [same, owner, before, after]
    next => exact others

/-- A turn of the call that has the lock before or after it, or one that leaves the lock with
whoever has it. -/
theorem Guarded.holding_turned (guarded : w.Guarded) (kind : StrategyKind) (id : Nat)
    (stage next : Stage) (o : Outside) (time : Int) (s : Supervisor)
    (under : w.calls id = some stage)
    (passes : Passes id (stage.need w.supervisor) o w.supervisor stage.hold s next.hold) :
    let w' := w.turned kind id stage o time s next
    (w.holding = stage.hold ∧ w'.holding = next.hold) ∨
      (stage.hold = .free ∧ next.hold = .free ∧ w'.holding = w.holding) := by
  intro w'
  have owner := guarded.lock id
  rw [hold_of_calls id stage under] at owner
  have mine : w'.hold id = next.hold := by simp [w', hold_turned]
  have was (held : stage.hold.holds = true) : w.holding = stage.hold := by
    rw [holding_of_held id (owner.mpr held), hold_of_calls id stage under]
  have is (held : next.hold.holds = true) : w'.holding = next.hold := by
    rw [holding_of_held id, mine]
    have owns := guarded.lock_turned kind id stage next o time s under passes id
    exact owns.mpr (mine ▸ held)
  cases before : stage.hold.holds <;> cases after : next.hold.holds
  · -- a turn without the lock: whoever has it is another call
    right
    refine ⟨(Hold.holds_eq_false_iff _).mp before, (Hold.holds_eq_false_iff _).mp after, ?_⟩
    have same : w'.supervisor.holder = w.supervisor.holder :=
      passes.keeps (before.trans after.symm)
    unfold holding
    rw [same]
    split
    next i held =>
      have apart : i ≠ id := by
        rintro rfl
        simp [owner.mp held] at before
      simp [w', hold_turned, apart]
    next => rfl
  · left
    have unheld := (passes.takes before after).1
    exact ⟨by rw [holding_of_unheld unheld, (Hold.holds_eq_false_iff _).mp before], is after⟩
  · left
    have unheld : w'.supervisor.holder = none := passes.gives before after
    exact ⟨was before, by rw [holding_of_unheld unheld, (Hold.holds_eq_false_iff _).mp after]⟩
  · exact .inl ⟨was before, is after⟩

theorem Guarded.step (guarded : w.Guarded) (step : Step kind w w') : w'.Guarded := by
  cases step with
  | begin id r unused =>
    refine ⟨fun i => ?_, ?_⟩
    · rw [hold_begin id r unused]
      exact guarded.lock i
    · rw [holding_begin id r unused]
      exact guarded.fits
  | turn id stage next o time s under truly moved =>
    have passes := Stage.advance_passes id o w.supervisor s stage next moved
    refine ⟨guarded.lock_turned kind id stage next o time s under passes, ?_⟩
    rcases guarded.holding_turned kind id stage next o time s under passes with
      ⟨was, is⟩ | ⟨free, -, same⟩
    · -- what the stage relied on is what the state gave, and it leaves what the next relies on
      rw [is]
      exact passes.fits (was ▸ guarded.fits)
    · -- without the lock it leaves alone what the call that has it relies on
      obtain ⟨slot, running⟩ := passes.leaves ((Hold.holds_eq_false_iff _).mpr free)
      rw [same]
      exact Hold.Fits.congr _ _ _ slot running guarded.fits
  | exit session => exact ⟨guarded.lock, guarded.fits⟩
  | other log disk =>
    exact ⟨guarded.lock, Hold.Fits.congr w.holding w.supervisor _ rfl Iff.rfl guarded.fits⟩

/-- The lock belongs to the call whose stage holds it, in whatever order the calls take turns. -/
theorem Reachable.guarded (reached : Reachable kind w) : w.Guarded := by
  induction reached with
  | start log disk =>
    constructor
    · intro id
      simp [World.start, hold, Hold.holds]
    · simp [World.start, holding, Hold.Fits, Supervisor.IsSettled]
  | next w w' _ step ih => exact ih.step step

/-- While nobody has the lock, the status is running exactly if a session is stored. -/
theorem Reachable.isSettled (reached : Reachable kind w) (unheld : w.supervisor.holder = none) :
    w.supervisor.IsSettled := by
  have fits := reached.guarded.fits
  rwa [holding_of_unheld unheld] at fits

/-- A call whose stage holds the lock has it, and finds the session as it relies on. -/
theorem Guarded.fits_of_calls (guarded : w.Guarded) (id : Nat) (stage : Stage)
    (under : w.calls id = some stage) (holds : stage.hold.holds = true) :
    w.supervisor.holder = some id ∧ stage.hold.Fits w.supervisor := by
  have same := hold_of_calls id stage under
  have held := (guarded.lock id).mpr (same ▸ holds)
  have fits := guarded.fits
  rw [holding_of_held id held, same] at fits
  exact ⟨held, fits⟩

/-- While a call has the lock, no other call is at a stage that holds it. -/
theorem Guarded.free_of_held (guarded : w.Guarded) {me id : Nat} {stage : Stage}
    (held : w.supervisor.holder = some me) (under : w.calls id = some stage) (apart : id ≠ me) :
    stage.hold.holds = false := by
  by_contra holds
  have owns := (guarded.fits_of_calls id stage under (by simpa using holds)).1
  exact apart (Option.some.inj (owns.symm.trans held))

/-- Nobody but the call that has the lock changes what is stored. -/
theorem Guarded.slot_of_spares (guarded : w.Guarded) {me : Nat} {news : List Event}
    (held : w.supervisor.holder = some me) (spares : Spares me news w w')
    (step : Step kind w w') : w'.supervisor.slot = w.supervisor.slot := by
  cases step with
  | begin | exit | other => rfl
  | turn id stage next o time s under truly moved =>
    have free := guarded.free_of_held held under (spares.ne_of_turned id next o time s)
    exact ((Stage.advance_passes id o w.supervisor s stage next moved).leaves free).1

theorem turned_of_after (id : Nat) (o : Outside) (time : Int)
    (applied : w.after? kind (.turn id o time) = some w') : ∃ stage s next,
      w.calls id = some stage ∧ (stage.need w.supervisor).IsTrue o w.disk ∧
      stage.advance id o w.supervisor = some (s, next) ∧
      w' = w.turned kind id stage o time s next := by
  simp only [after?] at applied
  split at applied
  · cases applied
  next stage under =>
    split at applied
    next truly =>
      obtain ⟨⟨s, next⟩, moved, rfl⟩ := Option.map_eq_some_iff.mp applied
      exact ⟨stage, s, next, under, truly, moved, rfl⟩
    next => cases applied

theorem step_of_after (move : Move) (applied : w.after? kind move = some w') :
    Step kind w w' := by
  cases move with
  | begin id r =>
    simp only [after?, Option.isNone_iff_eq_none] at applied
    split at applied
    next unused =>
      cases applied
      exact .begin w id r unused
    next => cases applied
  | turn id o time =>
    obtain ⟨stage, s, next, under, truly, moved, rfl⟩ := turned_of_after id o time applied
    exact .turn w id stage next o time s under truly moved
  | exit session =>
    cases applied
    exact .exit w session
  | other log disk =>
    cases applied
    exact .other w log disk

/-- What a sequence of choices leads to can come about. -/
theorem Reachable.play? (reached : Reachable kind w) (moves : List Move)
    (played : w.play? kind moves = some w') : Reachable kind w' := by
  induction moves generalizing w with
  | nil =>
    cases played
    exact reached
  | cons move rest ih =>
    obtain ⟨w1, applied, later⟩ := Option.bind_eq_some_iff.mp played
    exact ih (.next w w1 reached (step_of_after move applied)) later

theorem Guarded.exists_calls (guarded : w.Guarded) (owner : Nat)
    (held : w.supervisor.holder = some owner) :
    ∃ stage, w.calls owner = some stage ∧ stage.hold.holds = true := by
  have holds := (guarded.lock owner).mp held
  cases under : w.calls owner with
  | none => simp [hold, under, Hold.holds] at holds
  | some stage => exact ⟨stage, rfl, by rwa [hold_of_calls owner stage under] at holds⟩

theorem Reachable.run (reached : Reachable kind w)
    (run : Relation.ReflTransGen (Step kind) w w') : Reachable kind w' := by
  induction run with
  | refl => exact reached
  | tail _ step ih => exact .next _ _ ih step

/-- Whoever has the lock can go on until it has given it back, while all others wait. -/
theorem Reachable.exists_unheld (reached : Reachable kind w) :
    ∃ w', Relation.ReflTransGen (Step kind) w w' ∧ w'.supervisor.holder = none ∧
      ∀ id, (w.hold id).holds = false → w'.calls id = w.calls id := by
  cases held : w.supervisor.holder with
  | none => exact ⟨w, .refl, held, fun _ _ => rfl⟩
  | some owner =>
    obtain ⟨stage, under, holds⟩ := reached.guarded.exists_calls owner held
    -- by induction on the turns that are left until the lock is given back
    induction turns : stage.turns using Nat.strongRecOn generalizing w stage with
    | ind n ih =>
      subst turns
      obtain ⟨o, truly⟩ := (stage.need w.supervisor).exists_isTrue w.disk
      obtain ⟨s, next, moved, less⟩ := stage.advance_of_holds owner o w.supervisor holds
      let w1 := w.turned kind owner stage o 0 s next
      have step : Step kind w w1 := .turn w owner stage next o 0 s under truly moved
      have passes := Stage.advance_passes owner o w.supervisor s stage next moved
      have others (id : Nat) (free : (w.hold id).holds = false) : w1.calls id = w.calls id := by
        have apart : id ≠ owner := by
          rintro rfl
          rw [hold_of_calls id stage under, holds] at free
          cases free
        simp [w1, turned, apart]
      cases after : next.hold.holds with
      | false => exact ⟨w1, .single step, passes.gives holds after, others⟩
      | true =>
        have held1 : w1.supervisor.holder = some owner :=
          (passes.keeps (holds.trans after.symm)).trans held
        obtain ⟨w', later, unheld, kept⟩ := ih next.turns less (.next w w1 reached step) held1 next
          (calls_turned ..) after rfl
        refine ⟨w', .head step later, unheld, fun id free => ?_⟩
        have free1 : (w1.hold id).holds = false := by
          rw [hold, others id free]
          exact free
        rw [kept id free1, others id free]

end World

end Workbench
