import Workbench.Proofs.Log.Account
import Workbench.Proofs.Supervisor.Lines
import Workbench.Proofs.Supervisor.Sessions
import Workbench.Proofs.Supervisor.Status

/-! What a stop leaves behind. If no other build, run or stop takes a turn while it has the lock,
there is no session any more when it returns, and the status is building or idle. From then on
stops change nothing, and they say so by adding nothing to the log. -/
namespace Workbench

/-- The lines that a stop adds to the log in a turn. -/
def Stopping.lines : Stopping → List String
  | .settle trouble =>
    (trouble.map fun e => "Error stopping server: " ++ e.message).toList ++ ["Server stopped"]
  | _ => []

/-- All lines that a stop adds to the log. There are none if it found no session in the slot. -/
def Stopping.report (found : Option Session) (trouble : Option Error) : List String :=
  if found.isSome then lines (.settle trouble) else []

theorem Stopping.advance_log (me : Nat) (o : Outside) (s s' : Supervisor) (t : Stopping)
    (next : Stage) (moved : t.advance me o s = some (s', next)) : s'.log = s.log.lines t.lines := by
  cases t with
  | lock | take =>
    simp only [advance] at moved
    split at moved <;> cases moved <;> rfl
  | tearDown | release =>
    cases moved
    rfl
  | settle trouble =>
    cases moved
    cases trouble <;> rfl
  | publish =>
    cases moved
    exact s.publishIf_log _ _

section

variable (me : Nat) (o : Outside) (s s' : Supervisor) (slot : s.slot = none)
  (status : s.status.value = .building ∨ s.status.value = .idle)

include slot status

/-- A call that has taken a session out of the slot relies on a status that is running, so that a
removal changes nothing but who has the lock. -/
theorem Reaping.advance_bare (r : Reaping) (next : Option Reaping)
    (fits : r.hold.holds = true → r.hold.Fits s) (moved : r.advance me o s = some (s', next)) :
    ∃ holder, s' = { s with holder } := by
  cases r with
  | lock =>
    simp only [advance] at moved
    split at moved <;> cases moved
    exact ⟨_, rfl⟩
  | inspect =>
    simp only [advance, slot] at moved
    cases moved
    exact ⟨_, rfl⟩
  | tearDown | settle =>
    have running := (fits rfl).1
    simp [running] at status
  | release =>
    cases moved
    exact ⟨_, rfl⟩

theorem Stopping.advance_bare (t : Stopping) (next : Stage)
    (fits : t.hold.holds = true → t.hold.Fits s) (moved : t.advance me o s = some (s', next)) :
    (∃ holder, s' = { s with holder }) ∧ t.lines = [] := by
  cases t with
  | lock =>
    simp only [advance] at moved
    split at moved <;> cases moved
    exact ⟨⟨_, rfl⟩, rfl⟩
  | take =>
    simp only [advance, slot] at moved
    cases moved
    exact ⟨⟨_, rfl⟩, rfl⟩
  | tearDown | settle =>
    have running := (fits rfl).1
    simp [running] at status
  | publish =>
    cases moved
    have kept : ¬ clears s.status.value = true := by
      rcases status with building | idle
      · simp [building]
      · simp [idle]
    rw [Supervisor.publishIf, if_neg kept]
    exact ⟨⟨_, rfl⟩, rfl⟩
  | release =>
    cases moved
    exact ⟨⟨_, rfl⟩, rfl⟩

theorem Asking.advance_bare (a : Asking) (next : Stage)
    (fits : a.hold.holds = true → a.hold.Fits s) (moved : a.advance me o s = some (s', next)) :
    ∃ holder, s' = { s with holder } := by
  cases a with
  | reap r =>
    simp only [advance, Option.map_eq_some_iff] at moved
    obtain ⟨⟨s1, inner⟩, removed, same⟩ := moved
    cases same
    exact r.advance_bare me o s s1 slot status inner fits removed
  | lock =>
    simp only [advance] at moved
    split at moved <;> cases moved
    exact ⟨_, rfl⟩
  | answer =>
    cases moved
    exact ⟨_, rfl⟩

end

/-- A question that waits for the lock adds nothing to the log. -/
theorem Asking.advance_log (me : Nat) (o : Outside) (s s' : Supervisor) (a : Asking) (next : Stage)
    (waits : a.hold.holds = false) (moved : a.advance me o s = some (s', next)) :
    s'.log = s.log := by
  cases a with
  | reap r =>
    simp only [advance, Option.map_eq_some_iff] at moved
    obtain ⟨⟨s1, inner⟩, removed, same⟩ := moved
    cases same
    cases r with
    | lock =>
      simp only [Reaping.advance] at removed
      split at removed <;> cases removed
      rfl
    | _ => cases waits
  | lock =>
    simp only [advance] at moved
    split at moved <;> cases moved
    rfl
  | answer => cases waits

theorem Stopping.live_nil (o : Outside) (t : Stopping) : t.need.live o [] = [] := by
  cases t <;> rfl

theorem Asking.live_nil (o : Outside) (s : Supervisor) (a : Asking) :
    (a.need s).live o [] = [] := by
  cases a with
  | reap r =>
    cases r with
    | inspect =>
      simp only [need, Reaping.need]
      split <;> rfl
    | _ => rfl
  | _ => rfl

/-- Whether a call is a stop or has ended. -/
def Stage.isStop : Stage → Bool
  | .stop _ | .done _ => true
  | _ => false

/-- Whether a stop has published. -/
def Stage.hasPublished : Stage → Bool
  | .stop .release | .done _ => true
  | _ => false

theorem Stage.isStop_of_advance (me : Nat) (o : Outside) (s s' : Supervisor) (stage next : Stage)
    (stops : stage.isStop = true) (moved : stage.advance me o s = some (s', next)) :
    next.isStop = true := by
  cases stage with
  | stop t =>
    rcases (Stage.stop t).request_of_advance me o s s' next moved with same | ⟨answer, rfl⟩
    · cases next with
      | stop t' => rfl
      | _ => cases same
    · rfl
  | done answer => cases moved
  | _ => cases stops

/-- The lines that a stop has added to the log that has come to a stage. -/
def Stage.HasLogged (found : Option Session) (lines : List String) : Stage → Prop
  | .stop .publish | .stop .release | .done _ => ∃ trouble, lines = Stopping.report found trouble
  | _ => lines = []

namespace World

/-- A step that no build, run or stop takes but one. -/
def CalmStep (kind : StrategyKind) (me : Nat) (w w' : World) : Prop :=
  Step kind w w' ∧ ∀ id stage o before after, w'.past = .turn id stage o before after :: w.past →
    id = me ∨ ∃ a, stage = .isRunning a

/-- Whether a stop has added a line to the log. -/
def HasSaid (w : World) (id : Nat) (line : String) : Prop :=
  ∃ t o before after, .turn id (.stop t) o before after ∈ w.past ∧ line ∈ t.lines

/-- Whether a stop has torn down a session. -/
def WasTornDown (w : World) (id : Nat) (session : Session) : Prop :=
  ∃ o before after, .turn id (.stop (.tearDown session)) o before after ∈ w.past

/-- There is no session, and none is about to be told of. -/
structure IsStill (w : World) : Prop where
  slot : w.supervisor.slot = none
  live : w.live = []
  status : w.supervisor.status.value = .building ∨ w.supervisor.status.value = .idle

variable {kind : StrategyKind} {w w' : World}

theorem hasSaid_turned (id : Nat) (stage : Stage) (o : Outside) (time : Int) (s : Supervisor)
    (next : Stage) (i : Nat) (line : String) :
    (w.turned kind id stage o time s next).HasSaid i line ↔
      (i = id ∧ ∃ t, stage = .stop t ∧ line ∈ t.lines) ∨ w.HasSaid i line := by
  constructor
  · rintro ⟨t, o', before, after, member, said⟩
    rcases List.mem_cons.mp member with new | old
    · cases new
      exact .inl ⟨rfl, t, rfl, said⟩
    · exact .inr ⟨t, o', before, after, old, said⟩
  · rintro (⟨rfl, t, rfl, said⟩ | ⟨t, o', before, after, member, said⟩)
    · exact ⟨t, o, w.disk, _, List.mem_cons_self, said⟩
    · exact ⟨t, o', before, after, List.mem_cons_of_mem _ member, said⟩

/-- A turn in which no stop says anything. -/
theorem hasSaid_turned_of_silent (id : Nat) (stage : Stage) (o : Outside) (time : Int)
    (s : Supervisor) (next : Stage) (silent : ∀ t, stage = .stop t → t.lines = []) (i : Nat)
    (line : String) :
    (w.turned kind id stage o time s next).HasSaid i line ↔ w.HasSaid i line := by
  rw [hasSaid_turned]
  refine or_iff_right ?_
  rintro ⟨-, t, same, said⟩
  rw [silent t same] at said
  cases said

theorem hasSaid_written (log : Log) (disk : Disk) (i : Nat) (line : String) :
    (w.written log disk).HasSaid i line ↔ w.HasSaid i line := by
  simp [HasSaid, written]

theorem Spares.hasSaid {me : Nat} {news : List Event} (spares : Spares me news w w')
    (line : String) : w'.HasSaid me line ↔ w.HasSaid me line := by
  simp only [HasSaid, spares.turns]

/-- A stop that has said something has torn its session down. -/
theorem Reachable.calls_of_hasSaid (reached : Reachable kind w) (me : Nat) (line : String)
    (said : w.HasSaid me line) : w.calls me = some (.stop .publish) ∨
      w.calls me = some (.stop .release) ∨ w.calls me = some (.done true) := by
  induction reached with
  | start log disk =>
    obtain ⟨t, o, before, after, member, -⟩ := said
    cases member
  | next w w' reached step ih =>
    cases step.sees me with
    | begun r unused =>
      have late := ih said
      simp [unused] at late
    | turned stage next o time s under truly moved =>
      rw [calls_turned]
      rcases (hasSaid_turned me stage o time s next me line).mp said with ⟨-, t, rfl, new⟩ | old
      · cases t with
        | settle trouble =>
          cases moved
          exact .inl rfl
        | _ => cases new
      · have late := ih old
        rw [under] at late
        rcases late with publish | release | done
        · cases publish
          cases moved
          exact .inr (.inl rfl)
        · cases release
          cases moved
          exact .inr (.inr rfl)
        · cases done
          cases moved
    | spared news w' spares =>
      rw [spares.calls]
      exact ih ((spares.hasSaid line).mp said)

/-- The log is as it was, unless other programs have written to it. -/
def KeepsLog (w w' : World) : Prop :=
  ∃ news, w'.past = news ++ w.past ∧
    ((∀ before after, .other before after ∉ news) → w'.supervisor.log = w.supervisor.log)

/-- Some lines were added to the log, unless other programs have written to it. -/
def Logs (w w' : World) (lines : List String) : Prop :=
  ∃ news, w'.past = news ++ w.past ∧
    ((∀ before after, .other before after ∉ news) →
      w.supervisor.log.Gains w'.supervisor.log lines)

/-- What holds of each of two times in which no other program writes gives what holds of both. -/
theorem unwritten_trans {w1 w2 w3 : World} {P Q R : Prop} (both : P → Q → R)
    (first : ∃ news, w2.past = news ++ w1.past ∧
      ((∀ before after, .other before after ∉ news) → P))
    (second : ∃ news, w3.past = news ++ w2.past ∧
      ((∀ before after, .other before after ∉ news) → Q)) :
    ∃ news, w3.past = news ++ w1.past ∧
      ((∀ before after, .other before after ∉ news) → R) := by
  obtain ⟨news, past, early⟩ := first
  obtain ⟨later, past', late⟩ := second
  refine ⟨later ++ news, by rw [past', past, List.append_assoc], fun alone => both ?_ ?_⟩
  · exact early fun before after member => alone before after (List.mem_append_right _ member)
  · exact late fun before after member => alone before after (List.mem_append_left _ member)

theorem KeepsLog.trans {w1 w2 w3 : World} (first : KeepsLog w1 w2) (second : KeepsLog w2 w3) :
    KeepsLog w1 w3 := unwritten_trans (fun same same' => same'.trans same) first second

theorem Logs.trans {w1 w2 w3 : World} {lines more : List String} (first : Logs w1 w2 lines)
    (second : Logs w2 w3 more) : Logs w1 w3 (lines ++ more) :=
  unwritten_trans Log.Gains.trans first second

theorem KeepsLog.logs (keeps : KeepsLog w w') : Logs w w' [] := by
  obtain ⟨news, past, kept⟩ := keeps
  refine ⟨news, past, fun alone => ?_⟩
  rw [kept alone]
  exact w.supervisor.log.gains_lines []

/-- There is still no session, and nothing was published or said. -/
structure Changeless (me : Nat) (w w' : World) : Prop where
  still : w'.IsStill
  status : w'.supervisor.status = w.supervisor.status
  log : KeepsLog w w'
  said : ∀ line, w'.HasSaid me line ↔ w.HasSaid me line

theorem Changeless.trans {me : Nat} {w1 w2 w3 : World} (first : Changeless me w1 w2)
    (second : Changeless me w2 w3) : Changeless me w1 w3 where
  still := second.still
  status := second.status.trans first.status
  log := first.log.trans second.log
  said line := (second.said line).trans (first.said line)

/-- A turn that changes nothing but who has the lock. -/
theorem IsStill.turned (still : w.IsStill) (me id : Nat) (stage next : Stage) (o : Outside)
    (time : Int) (s : Supervisor) (bare : ∃ holder, s = { w.supervisor with holder })
    (live : (stage.need w.supervisor).live o [] = [])
    (silent : ∀ t, stage = .stop t → t.lines = []) :
    Changeless me w (w.turned kind id stage o time s next) := by
  obtain ⟨holder, rfl⟩ := bare
  refine ⟨⟨still.slot, ?_, still.status⟩, rfl, ⟨[_], rfl, fun _ => rfl⟩,
    hasSaid_turned_of_silent id stage o time _ next silent me⟩
  simp only [World.turned, still.live]
  exact live

/-- While there is no session, stops and questions change nothing but who has the lock. -/
theorem IsStill.calmStep (still : w.IsStill) (reached : Reachable kind w) (me : Nat)
    (stage : Stage) (under : w.calls me = some stage) (stops : stage.isStop = true)
    (step : CalmStep kind me w w') : Changeless me w w' := by
  obtain ⟨step, calm⟩ := step
  cases step with
  | begin id r unused =>
    exact ⟨⟨still.slot, still.live, still.status⟩, rfl, ⟨[], rfl, fun _ => rfl⟩, fun _ => .rfl⟩
  | turn id other next o time s under' truly moved =>
    have fits (holds : other.hold.holds = true) :=
      (reached.guarded.fits_of_calls id other under' holds).2
    have mild : (∃ t, other = .stop t) ∨ ∃ a, other = .isRunning a := by
      rcases calm id other o w.disk _ rfl with rfl | question
      · cases under'.symm.trans under
        cases stage with
        | stop t => exact .inl ⟨t, rfl⟩
        | done answer => cases moved
        | _ => cases stops
      · exact .inr question
    rcases mild with ⟨t, rfl⟩ | ⟨a, rfl⟩
    · obtain ⟨bare, silent⟩ :=
        t.advance_bare id o w.supervisor s still.slot still.status next fits moved
      exact still.turned me id _ next o time s bare (t.live_nil o) (by rintro _ ⟨⟩; exact silent)
    · have bare := a.advance_bare id o w.supervisor s still.slot still.status next fits moved
      exact still.turned me id _ next o time s bare (a.live_nil o _) nofun
  | exit session =>
    refine ⟨⟨still.slot, ?_, still.status⟩, rfl, ⟨[], rfl, fun _ => rfl⟩, fun _ => .rfl⟩
    simp [still.live]
  | other log disk =>
    refine ⟨⟨still.slot, still.live, still.status⟩, rfl, ⟨[_], rfl, fun alone => ?_⟩,
      fun line => hasSaid_written log disk me line⟩
    exact (alone _ _ List.mem_cons_self).elim

/-- What a stop has done that found a session, or none, in the slot. -/
structure Accounts (found : Option Session) (me : Nat) (w : World) : Prop where
  tornDown : ∀ session, found = some session → w.WasTornDown me session
  said : w.HasSaid me "Server stopped" ↔ found.isSome = true

/-- How far a stop has come since it had the lock and found a session, or none, in the slot. -/
inductive Empties (found : Option Session) (me : Nat) (w : World) : Stage → Prop where
  | take (slot : w.supervisor.slot = found) : Empties found me w (.stop .take)
  | tearDown (session : Session) (took : found = some session) :
      Empties found me w (.stop (.tearDown session))
  | settle (session : Session) (trouble : Option Error) (took : found = some session)
      (gone : w.WasTornDown me session) : Empties found me w (.stop (.settle trouble))
  | publish (accounts : Accounts found me w) : Empties found me w (.stop .publish)
  | release (accounts : Accounts found me w) : Empties found me w (.stop .release)
  | done (accounts : Accounts found me w) : Empties found me w (.done true)

variable {found : Option Session} {me : Nat} {stage : Stage}

theorem Accounts.mono (accounts : Accounts found me w)
    (tornDown : ∀ session, w.WasTornDown me session → w'.WasTornDown me session)
    (said : ∀ line, w'.HasSaid me line ↔ w.HasSaid me line) : Accounts found me w' where
  tornDown session took := tornDown session (accounts.tornDown session took)
  said := (said _).trans accounts.said

theorem Empties.mono (empties : Empties found me w stage)
    (slot : stage = .stop .take → w'.supervisor.slot = w.supervisor.slot)
    (tornDown : ∀ session, w.WasTornDown me session → w'.WasTornDown me session)
    (said : ∀ line, w'.HasSaid me line ↔ w.HasSaid me line) : Empties found me w' stage := by
  cases empties with
  | take stored => exact .take ((slot rfl).trans stored)
  | tearDown session took => exact .tearDown session took
  | settle session trouble took gone => exact .settle session trouble took (tornDown session gone)
  | publish accounts => exact .publish (accounts.mono tornDown said)
  | release accounts => exact .release (accounts.mono tornDown said)
  | done accounts => exact .done (accounts.mono tornDown said)

theorem WasTornDown.turned (session : Session) (gone : w.WasTornDown me session) (id : Nat)
    (stage next : Stage) (o : Outside) (time : Int) (s : Supervisor) :
    (w.turned kind id stage o time s next).WasTornDown me session := by
  obtain ⟨o', before, after, member⟩ := gone
  exact ⟨o', before, after, List.mem_cons_of_mem _ member⟩

/-- A turn in which the stop says nothing. -/
theorem Accounts.turned (accounts : Accounts found me w) (t : Stopping) (next : Stage) (o : Outside)
    (time : Int) (s : Supervisor) (silent : t.lines = []) :
    Accounts found me (w.turned kind me (.stop t) o time s next) := by
  refine accounts.mono (fun session gone => gone.turned session me _ _ o time s) ?_
  exact hasSaid_turned_of_silent me _ o time s next (by rintro _ ⟨⟩; exact silent) me

theorem Spares.wasTornDown {news : List Event} (spares : Spares me news w w') (session : Session) :
    w'.WasTornDown me session ↔ w.WasTornDown me session := by
  simp only [WasTornDown, spares.turns]

/-- A turn of the stop itself. -/
theorem Empties.turned (empties : Empties found me w stage) (reached : Reachable kind w)
    (under : w.calls me = some stage) (o : Outside) (time : Int) (s : Supervisor) (next : Stage)
    (moved : stage.advance me o w.supervisor = some (s, next)) :
    Empties found me (w.turned kind me stage o time s next) next := by
  cases empties with
  | take stored =>
    have unsaid (line : String) : ¬ w.HasSaid me line := by
      intro said
      have late := reached.calls_of_hasSaid me line said
      simp [under] at late
    simp only [Stage.advance, Stopping.advance, stored] at moved
    cases found with
    | none =>
      cases moved
      refine .publish ⟨fun session took => (by cases took), ?_⟩
      rw [hasSaid_turned]
      simp [unsaid, Stopping.lines]
    | some session =>
      cases moved
      exact .tearDown session rfl
  | tearDown session took =>
    cases moved
    exact .settle session o.trouble took ⟨o, w.disk, _, List.mem_cons_self⟩
  | settle session trouble took gone =>
    cases moved
    refine .publish ⟨fun session' took' => ?_, ?_⟩
    · cases took.symm.trans took'
      exact gone.turned session me _ _ o time _
    · rw [hasSaid_turned, took]
      simp [Stopping.lines]
  | publish accounts =>
    cases moved
    exact .release (accounts.turned .publish _ o time _ rfl)
  | release accounts =>
    cases moved
    exact .done (accounts.turned .release _ o time _ rfl)
  | done => cases moved

/-- What a turn of the stop itself adds to the log. -/
theorem Empties.hasLogged_turned (empties : Empties found me w stage) (o : Outside) (s : Supervisor)
    (next : Stage) (moved : stage.advance me o w.supervisor = some (s, next)) {lines : List String}
    (logged : stage.HasLogged found lines) : ∃ more,
      s.log = w.supervisor.log.lines more ∧ next.HasLogged found (lines ++ more) := by
  cases empties with
  | take stored =>
    refine ⟨[], Stopping.advance_log me o w.supervisor s .take next moved, ?_⟩
    rw [List.append_nil]
    simp only [Stage.advance, Stopping.advance, stored] at moved
    cases found with
    | none =>
      cases moved
      exact ⟨none, logged⟩
    | some session =>
      cases moved
      exact logged
  | tearDown session took =>
    cases moved
    exact ⟨[], rfl, (List.append_nil lines).trans logged⟩
  | settle session trouble took gone =>
    -- the only turn in which a stop says something
    refine ⟨_, Stopping.advance_log me o w.supervisor s (.settle trouble) next moved, ?_⟩
    cases moved
    rw [show lines = [] from logged, took]
    exact ⟨trouble, rfl⟩
  | publish accounts =>
    refine ⟨[], Stopping.advance_log me o w.supervisor s .publish next moved, ?_⟩
    cases moved
    rwa [List.append_nil]
  | release accounts =>
    cases moved
    exact ⟨[], rfl, by rwa [List.append_nil]⟩
  | done => cases moved

/-- While a stop has the lock, questions wait for it and add nothing to the log. -/
theorem CalmStep.keepsLog {news : List Event} (calm : CalmStep kind me w w') (guarded : w.Guarded)
    (held : w.supervisor.holder = some me) (spares : Spares me news w w') : KeepsLog w w' := by
  obtain ⟨step, calm⟩ := calm
  cases step with
  | begin | exit => exact ⟨[], rfl, fun _ => rfl⟩
  | turn id other next o time s under truly moved =>
    have apart := spares.ne_of_turned id next o time s
    rcases calm id other o w.disk _ rfl with own | ⟨a, rfl⟩
    · exact absurd own apart
    · have waits := guarded.free_of_held held under apart
      exact ⟨[_], rfl, fun _ => a.advance_log id o w.supervisor s next waits moved⟩
  | other log disk => exact ⟨[_], rfl, fun alone => (alone _ _ List.mem_cons_self).elim⟩

/-- Whatever others do, a stop that has the lock goes on with what it found in the slot. -/
theorem Empties.step (empties : Empties found me w stage) (reached : Reachable kind w)
    (under : w.calls me = some stage) (step : Step kind w w') :
    ∃ next, w'.calls me = some next ∧ Empties found me w' next := by
  cases step.sees me with
  | begun r unused => cases unused.symm.trans under
  | turned stage' next o time s under' truly moved =>
    cases under'.symm.trans under
    exact ⟨next, calls_turned .., empties.turned reached under o time s next moved⟩
  | spared news w' spares =>
    refine ⟨stage, spares.calls.trans under, empties.mono (fun take => ?_)
      (fun session => (spares.wasTornDown session).mpr) spares.hasSaid⟩
    subst take
    have held := (reached.guarded.fits_of_calls me _ under rfl).1
    exact reached.guarded.slot_of_spares held spares step

theorem Reachable.empties (reached : Reachable kind w) (under : w.calls me = some (.stop .take))
    (run : Relation.ReflTransGen (Step kind) w w') :
    ∃ stage, w'.calls me = some stage ∧ Empties w.supervisor.slot me w' stage := by
  induction run with
  | refl => exact ⟨.stop .take, under, .take rfl⟩
  | tail run step ih =>
    obtain ⟨stage, under', empties⟩ := ih
    exact empties.step (reached.run run) under' step

theorem steps_of_calm (run : Relation.ReflTransGen (CalmStep kind me) w w') :
    Relation.ReflTransGen (Step kind) w w' :=
  Relation.ReflTransGen.mono (fun _ _ (step : CalmStep kind me _ _) => step.1) _ _ run

theorem Step.isStop (step : Step kind w w') (under : w.calls me = some stage)
    (stops : stage.isStop = true) : ∃ next, w'.calls me = some next ∧ next.isStop = true := by
  rcases step.calls under with same | ⟨o, time, s, next, moved, rfl⟩
  · exact ⟨stage, same, stops⟩
  · exact ⟨next, calls_turned .., stage.isStop_of_advance me o _ s next stops moved⟩

/-- A stop that begins when there is no session changes nothing. -/
theorem IsStill.changeless (still : w.IsStill) (reached : Reachable kind w)
    (under : w.calls me = some stage) (stops : stage.isStop = true)
    (run : Relation.ReflTransGen (CalmStep kind me) w w') : Changeless me w w' := by
  suffices both : Changeless me w w' ∧ ∃ stage, w'.calls me = some stage ∧ stage.isStop = true
    from both.1
  induction run with
  | refl => exact ⟨⟨still, rfl, ⟨[], rfl, fun _ => rfl⟩, fun _ => .rfl⟩, stage, under, stops⟩
  | tail run step ih =>
    obtain ⟨changeless, stage', under', stops'⟩ := ih
    have reached' := reached.run (steps_of_calm run)
    exact ⟨changeless.trans (changeless.still.calmStep reached' me stage' under' stops' step),
      step.1.isStop under' stops'⟩

/-- No session is alive after a stop has published. -/
theorem Reachable.still_of_publish (reached : Reachable kind w)
    (under : w.calls me = some (.stop .publish)) (o : Outside) (time : Int) (s : Supervisor)
    (next : Stage) (moved : (Stage.stop .publish).advance me o w.supervisor = some (s, next)) :
    (w.turned kind me (.stop .publish) o time s next).IsStill := by
  obtain ⟨held, slot⟩ := reached.guarded.fits_of_calls me _ under rfl
  have live := reached.live_sublist
  rw [session?, holding_of_held me held, hold_of_calls me _ under, Hold.session?, slot] at live
  cases moved
  refine ⟨(Supervisor.publishIf_slot _ _ _).trans slot, List.sublist_nil.mp live, ?_⟩
  by_cases building : w.supervisor.status.value = .building
  · simp [World.turned, building]
  · simp [World.turned, building]

/-- There is no session once a stop has published, if no other build, run or stop took a turn. -/
theorem Reachable.still (reached : Reachable kind w) (under : w.calls me = some (.stop .take))
    (run : Relation.ReflTransGen (CalmStep kind me) w w') :
    ∃ stage, w'.calls me = some stage ∧ stage.isStop = true ∧
      (stage.hasPublished = true → w'.IsStill) := by
  induction run with
  | refl => exact ⟨.stop .take, under, rfl, nofun⟩
  | tail run step ih =>
    obtain ⟨stage, under', stops, still⟩ := ih
    have reached' := reached.run (steps_of_calm run)
    by_cases late : stage.hasPublished = true
    · obtain ⟨next, after, stops'⟩ := step.1.isStop under' stops
      have changeless := (still late).calmStep reached' me stage under' stops step
      exact ⟨next, after, stops', fun _ => changeless.still⟩
    · rcases step.1.calls under' with same | ⟨o, time, s, next, moved, rfl⟩
      · exact ⟨stage, same, stops, fun late' => (late late').elim⟩
      · refine ⟨next, calls_turned .., stage.isStop_of_advance me o _ s next stops moved,
          fun late' => ?_⟩
        cases stage with
        | stop t =>
          cases t with
          | publish => exact reached'.still_of_publish under' o time s next moved
          | lock | take =>
            simp only [Stage.advance, Stopping.advance] at moved
            split at moved <;> cases moved <;> cases late'
          | tearDown | settle =>
            cases moved
            cases late'
          | release => exact (late rfl).elim
        | done answer => cases moved
        | _ => cases stops

/-- What a stop has added to the log, if no other build, run or stop took a turn. -/
theorem Reachable.logs (reached : Reachable kind w) (under : w.calls me = some (.stop .take))
    (run : Relation.ReflTransGen (CalmStep kind me) w w') : ∃ stage lines,
      w'.calls me = some stage ∧ stage.HasLogged w.supervisor.slot lines ∧ Logs w w' lines := by
  induction run with
  | refl => exact ⟨.stop .take, [], under, rfl, [], rfl, fun _ => w.supervisor.log.gains_lines []⟩
  | @tail w1 w2 run step ih =>
    obtain ⟨stage, lines, under', logged, logs⟩ := ih
    have reached' := reached.run (steps_of_calm run)
    obtain ⟨_, same, empties⟩ := reached.empties under (steps_of_calm run)
    cases same.symm.trans under'
    cases step.1.sees me with
    | begun r unused => cases unused.symm.trans under'
    | turned _ next o time s under'' truly moved =>
      cases under''.symm.trans under'
      obtain ⟨more, log, logged'⟩ := empties.hasLogged_turned o s next moved logged
      refine ⟨next, lines ++ more, calls_turned .., logged', logs.trans ⟨[_], rfl, fun _ => ?_⟩⟩
      simp only [World.turned, log]
      exact w1.supervisor.log.gains_lines more
    | spared news w2 spares =>
      have keeps : KeepsLog w1 w2 := by
        by_cases holds : stage.hold.holds = true
        · have held := (reached'.guarded.fits_of_calls me stage under' holds).1
          exact step.keepsLog reached'.guarded held spares
        · -- without the lock the stop has ended, and there is no session any more
          obtain ⟨_, same, stops, still⟩ := reached.still under run
          cases same.symm.trans under'
          cases empties with
          | done accounts => exact ((still rfl).calmStep reached' me _ under' stops step).log
          | _ => exact absurd rfl holds
      exact ⟨stage, lines ++ [], spares.calls.trans under', by rwa [List.append_nil],
        logs.trans keeps.logs⟩

/-- A stop that has the lock can go on until it has ended, while all others wait. -/
theorem Reachable.exists_done (reached : Reachable kind w) (t : Stopping)
    (under : w.calls me = some (.stop t)) (holds : t.hold.holds = true) :
    ∃ w', Relation.ReflTransGen (CalmStep kind me) w w' ∧ w'.calls me = some (.done true) := by
  induction turns : t.turns using Nat.strongRecOn generalizing w t with
  | ind n ih =>
    subst turns
    obtain ⟨o, truly⟩ := ((Stage.stop t).need w.supervisor).exists_isTrue w.disk
    obtain ⟨s, next, moved, less, goes⟩ := t.advance_of_holds me o w.supervisor holds
    let w1 := w.turned kind me (.stop t) o 0 s next
    have step : Step kind w w1 := .turn w me (.stop t) next o 0 s under truly moved
    have calm : CalmStep kind me w w1 := by
      refine ⟨step, fun id stage o before after same => ?_⟩
      cases same
      exact .inl rfl
    have after : w1.calls me = some next := by simp [w1, World.turned]
    rcases goes with ⟨t', rfl, holds'⟩ | rfl
    · obtain ⟨w', later, ended⟩ := ih t'.turns less (.next w w1 reached step) t' after holds' rfl
      exact ⟨w', .head calm later, ended⟩
    · exact ⟨w1, .single calm, after⟩

/-- A stop that waits for the lock, or has it, can be brought to its end. -/
theorem Reachable.exists_stopped (reached : Reachable kind w) (t : Stopping)
    (under : w.calls me = some (.stop t)) :
    ∃ w', Relation.ReflTransGen (Step kind) w w' ∧ w'.calls me = some (.done true) := by
  have finish {w : World} (reached : Reachable kind w) (t : Stopping)
      (under : w.calls me = some (.stop t)) (holds : t.hold.holds = true) :
      ∃ w', Relation.ReflTransGen (Step kind) w w' ∧ w'.calls me = some (.done true) := by
    obtain ⟨w', run, ended⟩ := reached.exists_done t under holds
    exact ⟨w', steps_of_calm run, ended⟩
  cases t with
  | lock =>
    obtain ⟨w1, run, unheld, kept⟩ := reached.exists_unheld
    have under1 : w1.calls me = some (.stop .lock) := by
      rw [kept me (by rw [hold_of_calls me _ under]; rfl), under]
    have reached1 := reached.run run
    let w2 := w1.turned kind me (.stop .lock) {} 0 { w1.supervisor with holder := some me }
      (.stop .take)
    have step : Step kind w1 w2 :=
      .turn w1 me _ _ {} 0 _ under1 trivial (by simp [Stage.advance, Stopping.advance, unheld])
    obtain ⟨w', later, ended⟩ := finish (.next w1 w2 reached1 step) .take
      (by simp [w2, World.turned]) rfl
    exact ⟨w', (run.tail step).trans later, ended⟩
  | _ => exact finish reached _ under rfl

/-- A stop can always be brought to its end, and whoever has the lock goes on whatever it is
answered and gets nearer to giving it back. What a stop says in a turn it adds to the log. Once a
stop has returned that found a session in the slot it has torn that down, and it has said that the
server was stopped exactly if there was one. If no other build, run or stop took a turn since it took
the lock, there is no session any more, and the status is building if a build goes on and idle if
none does. The log has got what the stop said, and nothing if it found no session. A stop that comes
after it publishes nothing, says nothing, and leaves the log alone. -/
theorem stop_leaves_nothing (reached : Reachable kind w) :
    (∀ owner, w.supervisor.holder = some owner → ∃ stage, w.calls owner = some stage ∧
      ∀ o, ∃ s next, stage.advance owner o w.supervisor = some (s, next) ∧
        next.turns < stage.turns) ∧
    (∀ me t, w.calls me = some (.stop t) →
      (∃ w', Relation.ReflTransGen (Step kind) w w' ∧ w'.calls me = some (.done true)) ∧
      ∀ o s next, t.advance me o w.supervisor = some (s, next) →
        s.log = w.supervisor.log.lines t.lines ∧ w.supervisor.log.Gains s.log t.lines) ∧
    ∀ me, w.calls me = some (.stop .take) →
      (∃ w', Relation.ReflTransGen (CalmStep kind me) w w' ∧ w'.calls me = some (.done true)) ∧
      (∀ w', Relation.ReflTransGen (Step kind) w w' → w'.calls me = some (.done true) →
        (∀ session, w.supervisor.slot = some session → w'.WasTornDown me session) ∧
        (w'.HasSaid me "Server stopped" ↔ w.supervisor.slot.isSome = true)) ∧
      ∀ w', Relation.ReflTransGen (CalmStep kind me) w w' → w'.calls me = some (.done true) →
        w'.supervisor.slot = none ∧ w'.live = [] ∧
        ((∃ id, w'.isAccepted id = true) ∧ w'.supervisor.status.value = .building ∨
          (∀ id, w'.isAccepted id = false) ∧ w'.supervisor.status.value = .idle) ∧
        (∃ trouble, Logs w w' (Stopping.report w.supervisor.slot trouble)) ∧
        ∀ second, w'.calls second = some (.stop .lock) →
          ∀ w'', Relation.ReflTransGen (CalmStep kind second) w' w'' →
            w''.supervisor.slot = none ∧ w''.supervisor.status = w'.supervisor.status ∧
            KeepsLog w' w'' ∧ ∀ line, ¬ w''.HasSaid second line := by
  refine ⟨fun owner held => ?_, fun me t under => ⟨reached.exists_stopped t under, ?_⟩,
    fun me under => ⟨reached.exists_done .take under rfl, fun w' run ended => ?_,
      fun w' run ended => ?_⟩⟩
  · obtain ⟨stage, under, holds⟩ := reached.guarded.exists_calls owner held
    exact ⟨stage, under, fun o => stage.advance_of_holds owner o w.supervisor holds⟩
  · intro o s next moved
    have log := t.advance_log me o w.supervisor s next moved
    rw [log]
    exact ⟨rfl, w.supervisor.log.gains_lines t.lines⟩
  · -- a stop that has ended accounts for what it found
    obtain ⟨stage, under', empties⟩ := reached.empties under run
    cases under'.symm.trans ended
    cases empties with
    | done accounts => exact ⟨accounts.tornDown, accounts.said⟩
  · have reached' := reached.run (steps_of_calm run)
    obtain ⟨stage, under', -, still⟩ := reached.still under run
    cases under'.symm.trans ended
    have still := still rfl
    refine ⟨still.slot, still.live, ?_, ?_, fun second waits w'' later => ?_⟩
    · have building := reached'.exclusive.building
      rcases still.status with busy | idle
      · exact .inl ⟨building.mp busy, busy⟩
      · refine .inr ⟨fun id => ?_, idle⟩
        by_contra accepted
        have busy := building.mpr ⟨id, by simpa using accepted⟩
        simp [idle] at busy
    · obtain ⟨stage, lines, under', logged, logs⟩ := reached.logs under run
      cases under'.symm.trans ended
      obtain ⟨trouble, rfl⟩ := logged
      exact ⟨trouble, logs⟩
    · -- nothing is left that another stop could find
      have changeless := still.changeless reached' waits rfl later
      refine ⟨changeless.still.slot, changeless.status, changeless.log, fun line said => ?_⟩
      have late := reached'.calls_of_hasSaid second line ((changeless.said line).mp said)
      simp [waits] at late

/-- One call alone takes turns. -/
theorem calm_of_turns (answers : List Outside)
    (played : w.play? kind (answers.map fun o => .turn me o 0) = some w') :
    Relation.ReflTransGen (CalmStep kind me) w w' := by
  induction answers generalizing w with
  | nil =>
    cases played
    exact .refl
  | cons o rest ih =>
    obtain ⟨w1, applied, later⟩ := Option.bind_eq_some_iff.mp played
    refine .head ⟨step_of_after _ applied, fun id stage o' before after same => ?_⟩ (ih later)
    obtain ⟨_, _, _, -, -, -, rfl⟩ := turned_of_after me o 0 applied
    cases same
    exact .inl rfl

/-- A project is served, and a stop takes the lock. -/
def stoppingMoves : List Move :=
  let p : Project := ⟨"site", ⟨"/site"⟩, 0, 0⟩
  [.begin 0 (.run p), .turn 0 {} 0, .turn 0 {} 0, .turn 0 {} 0, .turn 0 { holds := true } 0,
    .turn 0 { served := .ok (.program 7) } 0, .turn 0 {} 0, .turn 0 {} 0, .turn 0 {} 0,
    .begin 1 .stop, .turn 1 {} 0]

/-- The session that is served is alive until it is torn down by the stop. The log, whose text was one
line, gets another one that says so, and so does its subscriber. -/
theorem served_session_stopped : ∃ w w', Reachable .builtin w ∧ w.live = [.program 7] ∧
    Relation.ReflTransGen (CalmStep .builtin 1) w w' ∧ w'.calls 1 = some (.done true) ∧
    w'.live = [] ∧ w'.WasTornDown 1 (.program 7) ∧ w'.HasSaid 1 "Server stopped" ∧
    w.supervisor.log.text = "ready\n" ∧ w'.supervisor.log.text = "ready\nServer stopped\n" ∧
    (w'.supervisor.log.receive 0).1 = .line "Server stopped" := by
  let before := (({} : Log).line "ready").subscribe.2
  let w0 := start before ⟨[], []⟩
  let w := (w0.play? .builtin stoppingMoves).getD w0
  let answers : List Outside := List.replicate 5 {}
  let w' := (w.play? .builtin (answers.map fun o => .turn 1 o 0)).getD w
  have played : w0.play? .builtin stoppingMoves = some w := rfl
  have reached : Reachable .builtin w := Reachable.play? (.start _ _) _ played
  have stored : w.supervisor.slot = some (.program 7) := rfl
  have run : Relation.ReflTransGen (CalmStep .builtin 1) w w' := calm_of_turns answers rfl
  have ended : w'.calls 1 = some (.done true) := rfl
  have log : w'.supervisor.log = before.line "Server stopped" := rfl
  obtain ⟨-, accounts, leaves⟩ := (stop_leaves_nothing reached).2.2 1 rfl
  obtain ⟨tornDown, said⟩ := accounts w' (steps_of_calm run) ended
  exact ⟨w, w', reached, rfl, run, ended, (leaves w' run ended).2.1, tornDown _ stored,
    said.mpr (by rw [stored]; rfl), rfl, rfl, by rw [log]; decide⟩

end World

end Workbench
