import Workbench.Proofs.Supervisor.World

/-! Which status follows which. A call that changes the status does so at one of a few stages, and
the lock on the session rules out that a session that runs is covered by another status. -/
namespace Workbench

/-- How far a call has come with the removal of a session that has ended. -/
def Stage.reaping? : Stage → Option Reaping
  | .build _ (.reap r) | .isRunning (.reap r) => some r
  | _ => none

/-- The status that a call publishes at a stage, by the status before it. -/
inductive Change (stage : Stage) (s : Status) : Status → Prop where
  | accepted (p : Project) (entering : stage = .build p .enter) (resting : s.isBusy = false) :
      Change stage s .building
  | built (p : Project) (success : Bool) (publishing : stage = .build p (.publish success))
      (building : s = .building) : Change stage s (Building.status success)
  | served (p : Project) (session : Session) (adopting : stage = .run p (.adopt session))
      (resting : s.isBusy = false) : Change stage s .running
  | replaced (p : Project) (trouble : Option Error) (settling : stage = .run p (.settle trouble))
      (running : s = .running) : Change stage s .idle
  | failed (p : Project) (e : Error) (failing : stage = .run p (.fail e))
      (resting : s.isBusy = false) : Change stage s (.error e.message)
  | stopped (stopping : stage = .stop .publish)
      (ended : s = .running ∨ ∃ message, s = .success message ∨ s = .error message) :
      Change stage s .idle
  | exited (trouble : Option Error) (removing : stage.reaping? = some (.settle trouble))
      (running : s = .running) : Change stage s (.error "dev server exited")

namespace Change

variable {stage : Stage} {s status : Status}

theorem of_building (change : Change stage s status) (building : s = .building) :
    status ≠ .running ∧ status ≠ .idle := by
  subst building
  cases change with
  | built p success => cases success <;> simp [Building.status]
  | accepted | served | failed => simp_all
  | replaced | exited => simp_all
  | stopped _ ended => simp at ended

theorem of_running (change : Change stage s status) (running : s = .running) :
    status ≠ .building ∧ ∀ message, status ≠ .success message := by
  subst running
  cases change with
  | accepted | served | failed | built => simp_all
  | replaced | stopped | exited => simp

theorem building_of_success (change : Change stage s status) (message : String)
    (success : status = .success message) : s = .building := by
  cases change with
  | built _ _ _ building => exact building
  | _ => cases success

end Change

/-- A stage leaves the status alone, or publishes one that may follow. -/
def Stage.Follows (stage : Stage) (s s' : Supervisor) : Prop :=
  s'.status = s.status ∨
    ∃ status, Change stage s.status.value status ∧ s'.status = s.status.publish status

variable {me : Nat} {o : Outside} {s s' : Supervisor}

theorem Status.isBusy_of_ne (status : Status) (building : status ≠ .building)
    (running : status ≠ .running) : status.isBusy = false := by
  simp [building, running]

theorem Stage.Follows.publishIf (stage : Stage) (s' : Supervisor) (test : Status → Bool)
    (status : Status) (same : s'.status = s.status)
    (change : test s.status.value = true → Change stage s.status.value status) :
    stage.Follows s (s'.publishIf test status) := by
  unfold Supervisor.publishIf
  split
  next passed =>
    rw [same] at passed
    exact .inr ⟨status, change passed, by rw [same]⟩
  next => exact .inl same

/-- A stage of the removal publishes nothing, or that the server has exited. -/
theorem Reaping.advance_follows (r : Reaping) (next : Option Reaping) (stage : Stage)
    (removing : stage.reaping? = some r) (moved : r.advance me o s = some (s', next)) :
    stage.Follows s s' := by
  cases r with
  | lock =>
    simp only [advance] at moved
    split at moved <;> cases moved
    exact .inl rfl
  | inspect =>
    simp only [advance] at moved
    repeat' split at moved
    all_goals cases moved
    all_goals exact .inl rfl
  | settle trouble =>
    cases moved
    refine .publishIf stage _ _ _ (by simp) fun running => ?_
    exact .exited trouble removing (by simpa using running)
  | tearDown | release =>
    cases moved
    exact .inl rfl

theorem Building.advance_follows (p : Project) (b : Building) (next : Stage)
    (moved : b.advance me o s p = some (s', next)) : (Stage.build p b).Follows s s' := by
  cases b with
  | reap r =>
    simp only [advance, Option.map_eq_some_iff] at moved
    obtain ⟨⟨s1, inner⟩, removed, same⟩ := moved
    cases same
    exact r.advance_follows inner _ rfl removed
  | enter =>
    simp only [advance] at moved
    split at moved <;> cases moved
    · exact .inl rfl
    next free =>
      exact .publishIf _ s _ _ rfl fun _ => .accepted p rfl (by simpa using free)
  | publish success =>
    cases moved
    refine .publishIf _ s _ _ rfl fun building => ?_
    exact .built p success rfl (by simpa using building)
  | find | work | wrap =>
    simp only [advance] at moved
    split at moved <;> cases moved
    all_goals exact .inl rfl
  | look | keep =>
    cases moved
    exact .inl rfl

/-- A call that holds the lock and carries no running session finds a status that is not running,
so that what it publishes covers none. -/
theorem Serving.advance_follows (p : Project) (r : Serving) (next : Stage)
    (fits : r.hold.holds = true → r.hold.Fits s)
    (moved : r.advance me o s p = some (s', next)) : (Stage.run p r).Follows s s' := by
  cases r with
  | adopt session =>
    have vacant := (fits rfl).1
    simp only [advance] at moved
    split at moved <;> cases moved
    · exact .inl rfl
    next free =>
      refine .publishIf _ s _ _ rfl fun _ => .served p session rfl ?_
      exact Status.isBusy_of_ne _ (by simpa using free) vacant
  | fail e =>
    have vacant := (fits rfl).1
    cases moved
    refine .publishIf _ _ _ _ rfl fun free => .failed p e rfl ?_
    exact Status.isBusy_of_ne _ (by simpa using free) vacant
  | settle trouble =>
    cases moved
    refine .publishIf _ _ _ _ (by simp) fun running => ?_
    exact .replaced p trouble rfl (by simpa using running)
  | look | lock | take | check | serve =>
    simp only [advance] at moved
    split at moved <;> cases moved
    all_goals exact .inl rfl
  | replace | store | drop | giveUp | release =>
    cases moved
    exact .inl (by simp)

theorem Stopping.advance_follows (t : Stopping) (next : Stage)
    (moved : t.advance me o s = some (s', next)) : (Stage.stop t).Follows s s' := by
  cases t with
  | publish =>
    cases moved
    refine .publishIf _ s _ _ rfl fun clears => .stopped rfl ?_
    cases before : s.status.value <;> simp [before] at clears ⊢
  | lock | take =>
    simp only [advance] at moved
    split at moved <;> cases moved
    all_goals exact .inl rfl
  | tearDown | settle | release =>
    cases moved
    exact .inl (by simp)

theorem Asking.advance_follows (a : Asking) (next : Stage)
    (moved : a.advance me o s = some (s', next)) : (Stage.isRunning a).Follows s s' := by
  cases a with
  | reap r =>
    simp only [advance, Option.map_eq_some_iff] at moved
    obtain ⟨⟨s1, inner⟩, removed, same⟩ := moved
    cases same
    exact r.advance_follows inner _ rfl removed
  | lock =>
    simp only [advance] at moved
    split at moved <;> cases moved
    exact .inl rfl
  | answer =>
    cases moved
    exact .inl rfl

/-- What any stage of any call does to the status. A call that holds the lock finds the session as
it relies on. -/
theorem Stage.advance_follows (stage next : Stage)
    (fits : stage.hold.holds = true → stage.hold.Fits s)
    (moved : stage.advance me o s = some (s', next)) : stage.Follows s s' := by
  cases stage with
  | build p b => exact b.advance_follows p next moved
  | run p r => exact r.advance_follows p next fits moved
  | stop t => exact t.advance_follows next moved
  | isRunning a => exact a.advance_follows next moved
  | done answer => cases moved

/-- A call fails to serve a project only on the answer of the strategy. -/
theorem Stage.served_of_fail (stage : Stage) (p : Project) (e : Error)
    (moved : stage.advance me o s = some (s', .run p (.fail e))) :
    stage = .run p .serve ∧ o.served = .error e := by
  rcases stage.request_of_advance me o s s' _ moved with same | ⟨answer, ended⟩
  · cases stage with
    | run q r =>
      cases same
      simp only [advance] at moved
      cases r with
      | serve =>
        simp only [Serving.advance] at moved
        split at moved <;> cases moved
        next answered => exact ⟨rfl, answered⟩
      | look | lock | take | check | adopt =>
        simp only [Serving.advance] at moved
        split at moved <;> cases moved
      | _ => cases moved
    | _ => cases same
  · cases ended

namespace World

/-- Whether the strategy has told a call that a project could not be served. -/
def WasRefused (w : World) (id : Nat) (p : Project) (e : Error) : Prop :=
  ∃ o before after, .turn id (.run p .serve) o before after ∈ w.past ∧ o.served = .error e

variable {kind : StrategyKind} {w w' : World}

/-- A call that is about to publish an error was told it by the strategy. -/
theorem Reachable.wasRefused (reached : Reachable kind w) (id : Nat) (p : Project) (e : Error)
    (under : w.calls id = some (.run p (.fail e))) : w.WasRefused id p e := by
  induction reached with
  | start log disk => cases under
  | next w w' _ step ih =>
    cases step.sees id with
    | begun r unused =>
      rw [calls_begin] at under
      cases r <;> cases under
    | turned stage next o time s known truly moved =>
      rw [calls_turned] at under
      cases under
      obtain ⟨rfl, answered⟩ := stage.served_of_fail p e moved
      exact ⟨o, w.disk, _, List.mem_cons_self, answered⟩
    | spared news w' spares =>
      rw [spares.calls] at under
      simpa only [WasRefused, spares.turns] using ih under

/-- Whatever happens next, the status stays what it was, or one call publishes a status that may
follow it; the error of a server that did not start is the one that the strategy told the call.
So only its outcome follows a build, a running project is neither built nor a success, and success
follows only a build. -/
theorem status_changes (reached : Reachable kind w) (step : Step kind w w') :
    (w'.supervisor.status = w.supervisor.status ∨
      ∃ id stage status, w.calls id = some stage ∧ Change stage w.supervisor.status.value status ∧
        (∀ p e, stage = .run p (.fail e) → w.WasRefused id p e) ∧
        w'.supervisor.status = w.supervisor.status.publish status) ∧
    (w.supervisor.status.value = .building →
      w'.supervisor.status.value ≠ .running ∧ w'.supervisor.status.value ≠ .idle) ∧
    (w.supervisor.status.value = .running → w'.supervisor.status.value ≠ .building ∧
      ∀ message, w'.supervisor.status.value ≠ .success message) ∧
    (∀ message, w'.supervisor.status.value = .success message →
      w'.supervisor.status = w.supervisor.status ∨ w.supervisor.status.value = .building) := by
  have next : w'.supervisor.status = w.supervisor.status ∨
      ∃ id stage status, w.calls id = some stage ∧ Change stage w.supervisor.status.value status ∧
        (∀ p e, stage = .run p (.fail e) → w.WasRefused id p e) ∧
        w'.supervisor.status = w.supervisor.status.publish status := by
    cases step with
    | begin | exit | other => exact .inl rfl
    | turn id stage next o time s under truly moved =>
      have fits (holds : stage.hold.holds = true) :=
        (reached.guarded.fits_of_calls id stage under holds).2
      rcases stage.advance_follows next fits moved with kept | ⟨status, change, published⟩
      · exact .inl kept
      · refine .inr ⟨id, stage, status, under, change, fun p e same => ?_, published⟩
        exact reached.wasRefused id p e (same ▸ under)
  refine ⟨next, ?_⟩
  rcases next with kept | ⟨-, stage, status, -, change, -, published⟩
  · rw [kept]
    exact ⟨fun building => by simp [building], fun running => by simp [running],
      fun _ _ => .inl rfl⟩
  · have value : w'.supervisor.status.value = status := by rw [published]; rfl
    rw [value]
    exact ⟨change.of_building, change.of_running, fun message same =>
      .inr (change.building_of_success message same)⟩

/-- A project is to be served while another call builds it. The build fails, and then the server
does not start. -/
def unservedMoves : List Move :=
  let p : Project := ⟨"site", ⟨"/site"⟩, 0, 0⟩
  [.begin 0 (.run p), .turn 0 {} 0, .turn 0 {} 0, .turn 0 {} 0, .turn 0 { holds := true } 0,
    .begin 1 (.build p), .turn 1 {} 0, .turn 1 {} 0, .turn 1 {} 0, .turn 1 {} 0, .turn 1 {} 0,
    .turn 0 { served := .error (.server (.worded "no port")) } 0]

/-- The error of the build is followed by the error of the server. -/
theorem unserved_error_follows : ∃ w w', Reachable .builtin w ∧ Step .builtin w w' ∧
    w.supervisor.status.value = .error "Build failed" ∧
    w'.supervisor.status.value = .error "Server error: no port" ∧
    ∃ id stage, w.calls id = some stage ∧ Change stage w.supervisor.status.value
      w'.supervisor.status.value := by
  let w := ((start {} ⟨[], []⟩).play? .builtin unservedMoves).getD (start {} ⟨[], []⟩)
  let w' := (w.after? .builtin (.turn 0 {} 0)).getD w
  have played : (start {} ⟨[], []⟩).play? .builtin unservedMoves = some w := rfl
  have reached : Reachable .builtin w := Reachable.play? (.start {} ⟨[], []⟩) _ played
  have step : Step .builtin w w' := step_of_after (.turn 0 {} 0) rfl
  have after : w'.supervisor.status.version = 3 := rfl
  refine ⟨w, w', reached, step, rfl, rfl, ?_⟩
  rcases (status_changes reached step).1 with kept | ⟨id, stage, status, under, change, -, published⟩
  · rw [kept] at after
    cases after
  · exact ⟨id, stage, under, by rwa [published]⟩

end World

end Workbench
