import Workbench.Proofs.Supervisor.Live

/-! What a supervisor does to the log. Whatever its calls come to and whatever the strategy does,
lines are added to the log, and nothing else is done to it. -/
namespace Workbench

/-- Lines were added to a log, and nothing else was done. -/
def Log.Adds (log log' : Log) : Prop := ∃ lines, log' = log.lines lines

theorem Log.Adds.refl (log : Log) : log.Adds log := ⟨[], rfl⟩

theorem Log.Adds.line (log : Log) (text : String) : log.Adds (log.line text) := ⟨[text], rfl⟩

theorem Log.Adds.trans {log log' log'' : Log} (first : log.Adds log') (second : log'.Adds log'') :
    log.Adds log'' := by
  obtain ⟨lines, rfl⟩ := first
  obtain ⟨more, rfl⟩ := second
  exact ⟨lines ++ more, (log.lines_append lines more).symm⟩

namespace Supervisor

variable (s : Supervisor)

@[simp]
theorem publishIf_log (test : Status → Bool) (status : Status) :
    (s.publishIf test status).log = s.log := by
  unfold publishIf
  split <;> rfl

theorem noteStop_adds (trouble : Option Error) : s.log.Adds (s.noteStop trouble).log := by
  cases trouble with
  | none => exact .refl _
  | some e => exact .line _ _

end Supervisor

variable {me : Nat} {o : Outside} {s s' : Supervisor}

theorem Reaping.advance_adds {r : Reaping} {next : Option Reaping}
    (moved : r.advance me o s = some (s', next)) : s.log.Adds s'.log := by
  cases r with
  | lock =>
    simp only [advance] at moved
    split at moved <;> cases moved
    exact .refl _
  | inspect =>
    simp only [advance] at moved
    split at moved
    · split at moved <;> cases moved <;> exact .refl _
    · cases moved
      exact .refl _
  | tearDown | release =>
    cases moved
    exact .refl _
  | settle trouble =>
    cases moved
    rw [Supervisor.publishIf_log]
    exact (s.noteStop_adds trouble).trans (.line _ _)

theorem Building.advance_adds {p : Project} {b : Building} {next : Stage}
    (moved : b.advance me o s p = some (s', next)) : s.log.Adds s'.log := by
  cases b with
  | reap r =>
    simp only [advance, Option.map_eq_some_iff] at moved
    obtain ⟨⟨_, _⟩, removed, same⟩ := moved
    cases same
    exact Reaping.advance_adds removed
  | enter =>
    simp only [advance] at moved
    split at moved <;> cases moved
    · exact .line _ _
    · rw [Supervisor.publishIf_log]
      exact .refl _
  | find =>
    simp only [advance] at moved
    split at moved <;> cases moved
    · exact .refl _
    · exact .line _ _
  | work =>
    simp only [advance] at moved
    split at moved <;> cases moved
    · exact .refl _
    · exact .line _ _
  | publish success =>
    cases moved
    rw [Supervisor.publishIf_log]
    exact .refl _
  | look | wrap | keep =>
    cases moved
    exact .refl _

theorem Serving.advance_adds {p : Project} {r : Serving} {next : Stage}
    (moved : r.advance me o s p = some (s', next)) : s.log.Adds s'.log := by
  cases r with
  | look =>
    simp only [advance] at moved
    split at moved <;> cases moved
    · exact .line _ _
    · exact .refl _
  | lock =>
    simp only [advance] at moved
    split at moved <;> cases moved
    exact .refl _
  | take =>
    simp only [advance] at moved
    split at moved <;> cases moved <;> exact .refl _
  | settle trouble =>
    cases moved
    rw [Supervisor.publishIf_log]
    exact s.noteStop_adds trouble
  | check =>
    simp only [advance] at moved
    split at moved <;> cases moved
    · exact .refl _
    · exact .line _ _
  | serve =>
    simp only [advance] at moved
    split at moved <;> cases moved <;> exact .refl _
  | adopt session =>
    simp only [advance] at moved
    split at moved <;> cases moved
    · exact .refl _
    · rw [Supervisor.publishIf_log]
      exact .refl _
  | giveUp trouble =>
    cases moved
    exact (s.noteStop_adds trouble).trans (.line _ _)
  | fail e =>
    cases moved
    rw [Supervisor.publishIf_log]
    exact .line _ _
  | replace | store | drop | release =>
    cases moved
    exact .refl _

theorem Stopping.advance_adds {t : Stopping} {next : Stage}
    (moved : t.advance me o s = some (s', next)) : s.log.Adds s'.log := by
  cases t with
  | lock =>
    simp only [advance] at moved
    split at moved <;> cases moved
    exact .refl _
  | take =>
    simp only [advance] at moved
    split at moved <;> cases moved <;> exact .refl _
  | settle trouble =>
    cases moved
    exact (s.noteStop_adds trouble).trans (.line _ _)
  | publish =>
    cases moved
    rw [Supervisor.publishIf_log]
    exact .refl _
  | tearDown | release =>
    cases moved
    exact .refl _

theorem Asking.advance_adds {a : Asking} {next : Stage}
    (moved : a.advance me o s = some (s', next)) : s.log.Adds s'.log := by
  cases a with
  | reap r =>
    simp only [advance, Option.map_eq_some_iff] at moved
    obtain ⟨⟨_, _⟩, removed, same⟩ := moved
    cases same
    exact Reaping.advance_adds removed
  | lock =>
    simp only [advance] at moved
    split at moved <;> cases moved
    exact .refl _
  | answer =>
    cases moved
    exact .refl _

/-- A stage of a call adds to the log what it has to say. -/
theorem Stage.advance_adds {stage next : Stage} (moved : stage.advance me o s = some (s', next)) :
    s.log.Adds s'.log := by
  cases stage with
  | build p b => exact Building.advance_adds moved
  | run p r => exact Serving.advance_adds moved
  | stop t => exact Stopping.advance_adds moved
  | isRunning a => exact Asking.advance_adds moved
  | done answer => cases moved

namespace Live

variable {l l' : Live}

theorem Around.adds (around : Around l l') : l.supervisor.log.Adds l'.supervisor.log := by
  obtain ⟨lines, same⟩ := around.supervisor
  exact ⟨lines, by rw [same]⟩

/-- One step of a call, which goes on from where the step ended if it goes on. -/
theorem stepCall_cases (l : Live) (id : Nat) :
    ((l.stepCall id).1 = none ∨ (l.stepCall id).1 = some (l.stepCall id).2) ∧
      l.supervisor.log.Adds (l.stepCall id).2.supervisor.log := by
  cases found : l.calls.find? (·.id = id) with
  | none =>
    simp only [stepCall, found]
    exact ⟨.inl trivial, .refl _⟩
  | some c =>
    cases begun : l.workFor c (c.stage.need l.supervisor) with
    | some work =>
      have around := around_proceed l work
      rcases answered : l.proceed work with ⟨l1, _ | o, rest⟩
      · rw [answered] at around
        simp only [stepCall, found, begun, answered]
        exact ⟨.inl trivial, around.adds⟩
      · rw [answered] at around
        simp only [stepCall, found, begun, answered]
        cases moved : c.stage.advance id o l1.supervisor with
        | none => exact ⟨.inl rfl, around.adds⟩
        | some reached => exact ⟨.inr rfl, around.adds.trans (Stage.advance_adds moved)⟩
    | none =>
      obtain ⟨around, -⟩ := l.reply_spec (c.stage.need l.supervisor)
      simp only [stepCall, found, begun]
      rcases answered : l.reply (c.stage.need l.supervisor) with ⟨l1, o⟩
      rw [answered] at around
      dsimp only
      cases moved : c.stage.advance id o l1.supervisor with
      | none => exact ⟨.inl rfl, around.adds⟩
      | some reached => exact ⟨.inr rfl, around.adds.trans (Stage.advance_adds moved)⟩

theorem advance_adds (id fuel : Nat) (l : Live) :
    l.supervisor.log.Adds (l.advance id fuel).supervisor.log := by
  induction fuel generalizing l with
  | zero => exact .refl _
  | succ fuel ih =>
    obtain ⟨goes, adds⟩ := l.stepCall_cases id
    unfold advance
    split
    next l' rest equal =>
      rw [equal] at goes adds
      obtain rfl := Option.some.inj (goes.resolve_left (by simp))
      exact adds.trans (ih _)
    next l' equal =>
      rw [equal] at adds
      exact adds

theorem round_adds (l : Live) (except : Option Nat) :
    l.supervisor.log.Adds (l.round except).supervisor.log := by
  have gathered := (around_foldl gather around_gather l.watched l).adds
  unfold round
  generalize l.watched.foldl gather l = l1 at gathered ⊢
  simp only
  generalize l1.calls.filter _ = calls
  induction calls generalizing l1 with
  | nil => exact gathered
  | cons c rest ih => exact ih _ (gathered.trans (advance_adds c.id stageLimit l1))

theorem pass?_adds (passed : l.pass? = some l') : l.supervisor.log.Adds l'.supervisor.log := by
  obtain ⟨host, -, rfl⟩ := Option.map_eq_some_iff.mp passed
  exact .refl _

theorem turn_adds (l : Live) (id : Nat) :
    l.supervisor.log.Adds (l.turn id).2.supervisor.log := by
  unfold turn
  have before : l.supervisor.log.Adds
      (if l.isAtSlow id then l.round (some id) else l).supervisor.log := by
    split
    next => exact l.round_adds (some id)
    next => exact .refl _
  generalize (if l.isAtSlow id then l.round (some id) else l) = l1 at before ⊢
  obtain ⟨goes, first⟩ := l1.stepCall_cases id
  simp only
  split
  next l2 _ equal =>
    rw [equal] at goes first
    obtain rfl := Option.some.inj (goes.resolve_left (by simp))
    exact before.trans first
  next l2 equal =>
    rw [equal] at first
    have others := (before.trans first).trans (l2.round_adds (some id))
    obtain ⟨goes, second⟩ := (l2.round (some id)).stepCall_cases id
    split
    next l3 _ equal =>
      rw [equal] at goes second
      obtain rfl := Option.some.inj (goes.resolve_left (by simp))
      exact others.trans second
    next l3 equal =>
      rw [equal] at second
      split
      next l4 passed => exact (others.trans second).trans (pass?_adds passed)
      next => exact others.trans second

end Live

end Workbench
