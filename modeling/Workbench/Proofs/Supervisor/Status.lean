import Workbench.Proofs.Supervisor.World

/-! What the status says of the calls and of the slot. It is building exactly while one accepted
build has not published its outcome, and while nobody holds the lock it is running exactly if a
session is stored. -/
namespace Workbench

/-- Whether a build has been accepted and has not published its outcome. -/
def Building.isAccepted : Building → Bool
  | .look | .reap _ | .enter => false
  | _ => true

/-- Whether a call is a build that has been accepted and has not published its outcome. -/
def Stage.isAccepted : Stage → Bool
  | .build _ b => b.isAccepted
  | _ => false

/-- What a stage does to the status as far as builds go: it leaves it alone, or a build is
accepted, or an accepted build publishes its outcome. -/
inductive Marks (s : Supervisor) (stage : Stage) (s' : Supervisor) (next : Stage) : Prop where
  | quiet (same : next.isAccepted = stage.isAccepted)
      (kept : s'.status.value = .building ↔ s.status.value = .building)
  | accepted (before : stage.isAccepted = false) (after : next.isAccepted = true)
      (idle : s.status.value ≠ .building) (building : s'.status.value = .building)
  | published (p : Project) (success : Bool) (under : stage = .build p (.publish success))
      (ended : next = .done success)
      (outcome : s.status.value = .building → s'.status.value = Building.status success)

section

attribute [local simp] Building.isAccepted Stage.isAccepted

theorem Reaping.advance_status (me : Nat) (o : Outside) (s s' : Supervisor) (r : Reaping)
    (next : Option Reaping) (moved : r.advance me o s = some (s', next)) :
    s'.status.value = .building ↔ s.status.value = .building := by
  cases r with
  | lock =>
    simp only [advance] at moved
    split at moved <;> cases moved
    exact Iff.rfl
  | inspect =>
    simp only [advance] at moved
    split at moved
    next =>
      split at moved <;> cases moved
      · exact Iff.rfl
      · exact Iff.rfl
    next =>
      cases moved
      exact Iff.rfl
  | settle trouble =>
    cases moved
    -- only a running status is replaced
    by_cases running : s.status.value = .running <;> simp [running]
  | tearDown | release =>
    cases moved
    exact Iff.rfl

theorem Building.advance_marks (me : Nat) (o : Outside) (s s' : Supervisor) (p : Project)
    (b : Building) (next : Stage) (moved : b.advance me o s p = some (s', next)) :
    Marks s (.build p b) s' next := by
  cases b with
  | reap r =>
    -- the removal of a session is no part of the build that has been accepted
    simp only [advance, Option.map_eq_some_iff] at moved
    obtain ⟨⟨s1, inner⟩, removed, same⟩ := moved
    cases same
    refine .quiet ?_ (r.advance_status me o s s1 inner removed)
    cases inner <;> rfl
  | look =>
    cases moved
    refine .quiet ?_ Iff.rfl
    split <;> rfl
  | enter =>
    simp only [advance] at moved
    split at moved <;> cases moved
    · exact .quiet rfl Iff.rfl
    -- a busy status refuses the build, and building is a busy one
    next free => exact .accepted rfl rfl (fun building => free (by simp [building])) (by simp)
  | find | wrap | work =>
    simp only [advance] at moved
    split at moved <;> cases moved
    · exact .quiet rfl Iff.rfl
    · exact .quiet rfl Iff.rfl
  | keep =>
    cases moved
    exact .quiet rfl Iff.rfl
  | publish success =>
    cases moved
    exact .published p success rfl rfl (by simp +contextual)

theorem Serving.advance_marks (me : Nat) (o : Outside) (s s' : Supervisor) (p : Project)
    (r : Serving) (next : Stage) (moved : r.advance me o s p = some (s', next)) :
    Marks s (.run p r) s' next := by
  cases r with
  | look | lock | take | check | serve =>
    simp only [advance] at moved
    split at moved <;> cases moved
    all_goals exact .quiet rfl Iff.rfl
  | adopt session =>
    simp only [advance] at moved
    split at moved <;> cases moved
    · exact .quiet rfl Iff.rfl
    next free => exact .quiet rfl (by simpa using free)
  | settle trouble =>
    cases moved
    refine .quiet rfl ?_
    by_cases running : s.status.value = .running <;> simp [running]
  | fail e =>
    cases moved
    refine .quiet rfl ?_
    by_cases building : s.status.value = .building <;> simp [building]
  | replace | store | drop | giveUp | release =>
    cases moved
    exact .quiet rfl (by simp)

theorem Stopping.advance_marks (me : Nat) (o : Outside) (s s' : Supervisor) (t : Stopping)
    (next : Stage) (moved : t.advance me o s = some (s', next)) : Marks s (.stop t) s' next := by
  cases t with
  | lock | take =>
    simp only [advance] at moved
    split at moved <;> cases moved
    all_goals exact .quiet rfl Iff.rfl
  | publish =>
    cases moved
    refine .quiet rfl ?_
    cases status : s.status.value <;> simp [status]
  | tearDown | settle | release =>
    cases moved
    exact .quiet rfl (by simp)

theorem Asking.advance_marks (me : Nat) (o : Outside) (s s' : Supervisor) (a : Asking)
    (next : Stage) (moved : a.advance me o s = some (s', next)) :
    Marks s (.isRunning a) s' next := by
  cases a with
  | reap r =>
    simp only [advance, Option.map_eq_some_iff] at moved
    obtain ⟨⟨s1, inner⟩, removed, same⟩ := moved
    cases same
    exact .quiet rfl (r.advance_status me o s s1 inner removed)
  | lock =>
    simp only [advance] at moved
    split at moved <;> cases moved
    exact .quiet rfl Iff.rfl
  | answer =>
    cases moved
    exact .quiet rfl Iff.rfl

end

/-- What any stage of any call does to the status as far as builds go. -/
theorem Stage.advance_marks (me : Nat) (o : Outside) (s s' : Supervisor) (stage next : Stage)
    (moved : stage.advance me o s = some (s', next)) : Marks s stage s' next := by
  cases stage with
  | build p b => exact b.advance_marks me o s s' p next moved
  | run p r => exact r.advance_marks me o s s' p next moved
  | stop t => exact t.advance_marks me o s s' next moved
  | isRunning a => exact a.advance_marks me o s s' next moved
  | done answer => cases moved

namespace World

/-- Whether a call is an accepted build that has not published its outcome. -/
def isAccepted (w : World) (id : Nat) : Bool := (w.calls id).any Stage.isAccepted

/-- The status is building exactly while there is an accepted build, and there is at most one. -/
structure Exclusive (w : World) : Prop where
  building : w.supervisor.status.value = .building ↔ ∃ id, w.isAccepted id = true
  unique : ∀ i j, w.isAccepted i = true → w.isAccepted j = true → i = j

variable {kind : StrategyKind} {w w' : World}

theorem isAccepted_turned (id : Nat) (stage : Stage) (o : Outside) (time : Int) (s : Supervisor)
    (next : Stage) (i : Nat) : (w.turned kind id stage o time s next).isAccepted i =
      if i = id then next.isAccepted else w.isAccepted i := by
  by_cases same : i = id
  · simp [isAccepted, turned, same]
  · simp [isAccepted, turned, same]

theorem isAccepted_begin (id : Nat) (r : Request) (unused : w.calls id = none) (i : Nat) :
    (w.begin id r).isAccepted i = w.isAccepted i := by
  by_cases same : i = id
  · subst same
    cases r <;> simp [isAccepted, begin, unused] <;> rfl
  · simp [isAccepted, begin, same]

theorem isAccepted_of_calls (id : Nat) (stage : Stage) (under : w.calls id = some stage) :
    w.isAccepted id = stage.isAccepted := by
  simp [isAccepted, under]

theorem Exclusive.turned (exclusive : w.Exclusive) (id : Nat) (stage next : Stage) (o : Outside)
    (time : Int) (s : Supervisor) (under : w.calls id = some stage)
    (marks : Marks w.supervisor stage s next) :
    (w.turned kind id stage o time s next).Exclusive := by
  have mine := isAccepted_of_calls id stage under
  have after : ∀ i, (w.turned kind id stage o time s next).isAccepted i =
      if i = id then next.isAccepted else w.isAccepted i :=
    isAccepted_turned id stage o time s next
  cases marks with
  | quiet same kept =>
    have still : (w.turned kind id stage o time s next).isAccepted = w.isAccepted := by
      funext i
      rw [after]
      split
      next equal => rw [equal, mine, same]
      next => rfl
    refine ⟨?_, ?_⟩
    · rw [still]
      exact kept.trans exclusive.building
    · rw [still]
      exact exclusive.unique
  | accepted before later idle building =>
    -- no other build was accepted, or the status would have said so
    have unaccepted : ∀ i, w.isAccepted i = false := by
      intro i
      by_contra accepted
      exact idle (exclusive.building.mpr ⟨i, by simpa using accepted⟩)
    have only : ∀ i, (w.turned kind id stage o time s next).isAccepted i = true → i = id := by
      intro i accepted
      rw [after] at accepted
      by_contra apart
      simp [apart, unaccepted] at accepted
    refine ⟨iff_of_true building ⟨id, by simp [after, later]⟩, fun i j first second => ?_⟩
    rw [only i first, only j second]
  | published p success stageIs ended outcome =>
    -- the status is still building, so that the outcome is published
    have accepted : w.isAccepted id = true := by rw [mine, stageIs]; rfl
    have building := exclusive.building.mpr ⟨id, accepted⟩
    have unaccepted : ∀ i, (w.turned kind id stage o time s next).isAccepted i ≠ true := by
      intro i still
      rw [after] at still
      split at still
      next => simp [ended, Stage.isAccepted] at still
      next apart => exact apart (exclusive.unique i id still accepted)
    refine ⟨iff_of_false ?_ fun ⟨i, still⟩ => unaccepted i still,
      fun i _ first _ => (unaccepted i first).elim⟩
    simp [World.turned, outcome building]

theorem Exclusive.step (exclusive : w.Exclusive) (step : Step kind w w') : w'.Exclusive := by
  cases step with
  | begin id r unused =>
    have same : (w.begin id r).isAccepted = w.isAccepted := funext (isAccepted_begin id r unused)
    exact ⟨same ▸ exclusive.building, same ▸ exclusive.unique⟩
  | turn id stage next o time s under truly moved =>
    exact exclusive.turned id stage next o time s under
      (Stage.advance_marks id o w.supervisor s stage next moved)
  | exit session => exact ⟨exclusive.building, exclusive.unique⟩
  | other log disk => exact ⟨exclusive.building, exclusive.unique⟩

/-- Builds are exclusive in whatever order calls take turns. -/
theorem Reachable.exclusive (reached : Reachable kind w) : w.Exclusive := by
  induction reached with
  | start log disk =>
    constructor
    · simp [World.start, isAccepted]
    · simp [World.start, isAccepted]
  | next w w' _ step ih => exact ih.step step

/-- While no call holds the lock on the session, the status is running exactly if a session is
stored. Once all calls have ended nobody holds it, and the status is not building either. -/
theorem running_iff_session_stored (reached : Reachable kind w) :
    (w.supervisor.holder = none →
      (w.supervisor.status.value = .running ↔ w.supervisor.slot.isSome)) ∧
    ((∀ id stage, w.calls id = some stage → ∃ answer, stage = .done answer) →
      w.supervisor.status.value ≠ .building ∧
        (w.supervisor.status.value = .running ↔ w.supervisor.slot.isSome)) := by
  have settled := reached.isSettled
  refine ⟨settled, fun ended => ?_⟩
  have unheld : w.supervisor.holder = none := by
    by_contra held
    obtain ⟨id, owner⟩ := Option.ne_none_iff_exists'.mp held
    have holds := (reached.guarded.lock id).mp owner
    cases under : w.calls id with
    | none => simp [hold, under, Hold.holds] at holds
    | some stage =>
      obtain ⟨answer, rfl⟩ := ended id stage under
      simp [hold, under, Stage.hold, Hold.holds] at holds
  refine ⟨fun building => ?_, settled unheld⟩
  -- a build that is going on has not ended
  obtain ⟨id, accepted⟩ := reached.exclusive.building.mp building
  cases under : w.calls id with
  | none => simp [isAccepted, under] at accepted
  | some stage =>
    obtain ⟨answer, rfl⟩ := ended id stage under
    simp [isAccepted, under, Stage.isAccepted] at accepted

/-- A call serves a project while another is refused to build it. -/
def servingMoves : List Move :=
  let p : Project := ⟨"site", ⟨"/site"⟩, 0, 0⟩
  [.begin 0 (.run p), .turn 0 {} 0, .turn 0 {} 0, .turn 0 {} 0, .turn 0 { holds := true } 0,
    .turn 0 { served := .ok (.program 7) } 0, .turn 0 {} 0, .begin 1 (.build p), .turn 0 {} 0,
    .turn 0 {} 0, .turn 1 {} 0, .turn 1 {} 0, .turn 1 { holds := true } 0,
    .exit (.program 7), .turn 1 {} 0, .turn 1 {} 0]

/-- The session is stored, and the status is running, even if it has just ended by itself. -/
theorem serving_session_stored : ∃ w, Reachable .builtin w ∧ w.live = [] ∧
    w.supervisor.holder = none ∧ w.supervisor.slot = some (.program 7) ∧
    w.supervisor.status.value = .running := by
  let w := ((start {} ⟨[], []⟩).play? .builtin servingMoves).getD (start {} ⟨[], []⟩)
  have played : (start {} ⟨[], []⟩).play? .builtin servingMoves = some w := rfl
  have reached : Reachable .builtin w := Reachable.play? (.start {} ⟨[], []⟩) _ played
  have stored : w.supervisor.slot = some (.program 7) := rfl
  refine ⟨w, reached, rfl, rfl, stored, ?_⟩
  exact ((running_iff_session_stored reached).1 rfl).mpr (by rw [stored]; rfl)

end World

end Workbench
