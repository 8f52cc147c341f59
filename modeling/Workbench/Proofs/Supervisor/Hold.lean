import Workbench.Supervisor.Basic
import Workbench.Supervisor.Stage

/-! How each stage of a call stands to the session and to the lock on it, and what a stage may do
to them. Only the call that holds the lock touches the slot or lets the project start or cease
to run. It can always go on, and gives the lock back after a few turns. -/
namespace Workbench

namespace Supervisor

variable (s : Supervisor)

@[simp] theorem line_status (text : String) : (s.line text).status = s.status := rfl

@[simp] theorem line_slot (text : String) : (s.line text).slot = s.slot := rfl

@[simp] theorem line_holder (text : String) : (s.line text).holder = s.holder := rfl

@[simp] theorem release_status : s.release.status = s.status := rfl

@[simp] theorem release_slot : s.release.slot = s.slot := rfl

@[simp] theorem release_holder : s.release.holder = none := rfl

@[simp] theorem noteStop_status (trouble : Option Error) :
    (s.noteStop trouble).status = s.status := by
  cases trouble <;> rfl

@[simp] theorem noteStop_slot (trouble : Option Error) : (s.noteStop trouble).slot = s.slot := by
  cases trouble <;> rfl

@[simp] theorem noteStop_holder (trouble : Option Error) :
    (s.noteStop trouble).holder = s.holder := by
  cases trouble <;> rfl

@[simp] theorem publishIf_value (test : Status → Bool) (status : Status) :
    (s.publishIf test status).status.value =
      if test s.status.value then status else s.status.value := by
  unfold publishIf
  split <;> rfl

@[simp] theorem publishIf_slot (test : Status → Bool) (status : Status) :
    (s.publishIf test status).slot = s.slot := by
  unfold publishIf
  split <;> rfl

@[simp] theorem publishIf_holder (test : Status → Bool) (status : Status) :
    (s.publishIf test status).holder = s.holder := by
  unfold publishIf
  split <;> rfl

/-- The status is running exactly if a session is stored. -/
def IsSettled : Prop := s.status.value = .running ↔ s.slot.isSome

end Supervisor

@[simp] theorem Status.isRunning_eq (s : Status) : s.isRunning = decide (s = .running) := rfl

@[simp] theorem Status.isBuilding_eq (s : Status) : s.isBuilding = decide (s = .building) := rfl

@[simp] theorem Status.isBusy_eq (s : Status) :
    s.isBusy = decide (s = .building ∨ s = .running) := by
  cases s <;> simp [Status.isBusy]

@[simp] theorem Stopping.clears_eq (s : Status) :
    Stopping.clears s = decide (s ≠ .building ∧ s ≠ .idle) := by
  cases s <;> simp [Stopping.clears]

@[simp] theorem Building.status_ne_running (success : Bool) : status success ≠ .running := by
  cases success <;> simp [status]

@[simp] theorem Building.status_ne_building (success : Bool) : status success ≠ .building := by
  cases success <;> simp [status]

/-- How a call stands to the session and to the lock on it. -/
inductive Hold where
  /-- The call does not hold the lock. -/
  | free
  /-- It holds the lock, and the status and the slot agree. -/
  | settled
  /-- The status is running while the slot is empty; the call may carry the session. -/
  | between (carried : Option Session)
  /-- The slot is empty and the status is not running; the call may carry a session. -/
  | vacant (carried : Option Session)
  /-- The slot is empty, whatever the status. -/
  | cleared
  deriving DecidableEq

namespace Hold

/-- Whether a call holds the lock. -/
def holds (h : Hold) : Bool := h ≠ .free

/-- The session that a call carries. -/
def carried? : Hold → Option Session
  | .between carried | .vacant carried => carried
  | _ => none

/-- What a call relies on while it holds the lock; what holds of all while it is free. -/
def Fits (s : Supervisor) : Hold → Prop
  | .free | .settled => s.IsSettled
  | .between _ => s.status.value = .running ∧ s.slot = none
  | .vacant _ => s.status.value ≠ .running ∧ s.slot = none
  | .cleared => s.slot = none

/-- The session that is stored or carried. -/
def session? (s : Supervisor) (h : Hold) : Option Session := s.slot <|> h.carried?

theorem holds_eq_false_iff (h : Hold) : h.holds = false ↔ h = .free := by
  simp [holds]

/-- A supervisor whose slot is as before and that runs if it did fits what it did. -/
theorem Fits.congr (h : Hold) (s s' : Supervisor) (slot : s'.slot = s.slot)
    (running : s'.status.value = .running ↔ s.status.value = .running) (fits : h.Fits s) :
    h.Fits s' := by
  cases h <;> simp_all [Fits, Supervisor.IsSettled]

end Hold

/-- The session that is stored or carried after a need was answered, if there was one before. -/
def Need.session? (o : Outside) (before : Option Session) : Need → Option Session
  | .stopped _ => none
  | .served _ =>
    match o.served with
    | .ok session => some session
    | .error _ => before
  | _ => before

/-- What a stage of the call `me` does to the session and to the lock on it, with what it needed
and was answered. -/
structure Passes (me : Nat) (need : Need) (o : Outside) (s : Supervisor) (h : Hold)
    (s' : Supervisor) (h' : Hold) : Prop where
  keeps : h.holds = h'.holds → s'.holder = s.holder
  takes : h.holds = false → h'.holds = true → s.holder = none ∧ s'.holder = some me
  gives : h.holds = true → h'.holds = false → s'.holder = none
  leaves : h.holds = false →
    s'.slot = s.slot ∧ (s'.status.value = .running ↔ s.status.value = .running)
  fits : h.Fits s → h'.Fits s'
  stops : ∀ session, need = .stopped session → h.carried? = some session
  serves : ∀ p, need = .served p → h = .vacant none
  session : h.Fits s → h'.session? s' = need.session? o (h.session? s)

/-- How a stage of the removal stands to the session. -/
def Reaping.hold : Reaping → Hold
  | .lock => .free
  | .inspect | .release => .settled
  | .tearDown session => .between (some session)
  | .settle _ => .between none

/-- How a removal that may have ended stands to the session. -/
def Reaping.holdOf? (r : Option Reaping) : Hold := (r.map hold).getD .free

/-- How a stage of a build stands to the session. -/
def Building.hold : Building → Hold
  | .reap r => r.hold
  | _ => .free

/-- How a stage of serving stands to the session. -/
def Serving.hold : Serving → Hold
  | .look | .lock => .free
  | .take | .release true => .settled
  | .replace session | .store session => .between (some session)
  | .settle _ => .between none
  | .check | .serve | .giveUp _ | .fail _ | .release false => .vacant none
  | .adopt session | .drop session => .vacant (some session)

/-- How a stage of stopping stands to the session. -/
def Stopping.hold : Stopping → Hold
  | .lock => .free
  | .take | .release => .settled
  | .tearDown session => .between (some session)
  | .settle _ => .between none
  | .publish => .cleared

/-- How a stage of the question stands to the session. -/
def Asking.hold : Asking → Hold
  | .reap r => r.hold
  | .lock => .free
  | .answer => .settled

/-- How a stage stands to the session. -/
def Stage.hold : Stage → Hold
  | .build _ b => b.hold
  | .run _ r => r.hold
  | .stop t => t.hold
  | .isRunning a => a.hold
  | .done _ => .free

section

attribute [local simp] Supervisor.IsSettled Hold.holds Hold.carried? Hold.Fits Hold.session?
  Need.session? Reaping.hold Reaping.holdOf? Building.hold Serving.hold Stopping.hold Asking.hold
  Stage.hold

theorem Reaping.advance_passes (me : Nat) (o : Outside) (s s' : Supervisor) (r : Reaping)
    (next : Option Reaping) (moved : r.advance me o s = some (s', next)) :
    Passes me (r.need s) o s r.hold s' (holdOf? next) := by
  cases r with
  | lock =>
    simp only [advance] at moved
    split at moved <;> cases moved
    constructor <;> simp_all [need]
  | inspect =>
    simp only [advance] at moved
    split at moved
    next session stored =>
      split at moved <;> cases moved
      · constructor <;> simp_all [need]
      · constructor <;> simp_all [need]
    next absent =>
      cases moved
      constructor <;> simp_all [need]
  | tearDown | settle | release =>
    cases moved
    constructor <;> simp_all [need]

theorem Building.advance_passes (me : Nat) (o : Outside) (s s' : Supervisor) (p : Project)
    (b : Building) (next : Stage) (moved : b.advance me o s p = some (s', next)) :
    Passes me (b.need s p) o s b.hold s' next.hold := by
  cases b with
  | reap r =>
    simp only [advance, Option.map_eq_some_iff] at moved
    obtain ⟨⟨s1, inner⟩, removed, same⟩ := moved
    cases same
    -- the build does what the removal does, and is free of the lock after it
    have passes := r.advance_passes me o s s1 inner removed
    cases inner <;> exact passes
  | look =>
    cases moved
    split
    · constructor <;> simp_all [need]
    · constructor <;> simp_all [need]
  | enter =>
    simp only [advance] at moved
    split at moved <;> cases moved
    -- a build is accepted only if the status is not running, so that it does not cease to be
    · constructor <;> simp_all [need]
    · constructor <;> simp_all [need]
  | find | wrap | work =>
    simp only [advance] at moved
    split at moved <;> cases moved
    · constructor <;> simp_all [need]
    · constructor <;> simp_all [need]
  | keep =>
    cases moved
    constructor <;> simp_all [need]
  | publish success =>
    cases moved
    -- the outcome replaces only the status that says that a build is going on
    by_cases building : s.status.value = .building
    · constructor <;> simp_all [need]
    · constructor <;> simp_all [need]

theorem Serving.advance_passes (me : Nat) (o : Outside) (s s' : Supervisor) (p : Project)
    (r : Serving) (next : Stage) (moved : r.advance me o s p = some (s', next)) :
    Passes me (r.need p) o s r.hold s' next.hold := by
  cases r with
  | look | lock | take | check | serve | adopt =>
    simp only [advance] at moved
    split at moved <;> cases moved
    all_goals constructor <;> simp_all [need]
  | fail e =>
    cases moved
    -- the slot is empty, and neither an error nor a build is a running status
    by_cases building : s.status.value = .building
    · constructor <;> simp_all [need]
    · constructor <;> simp_all [need]
  | release running =>
    cases moved
    cases running
    · constructor <;> simp_all [need]
    · constructor <;> simp_all [need]
  | replace | settle | store | drop | giveUp =>
    cases moved
    constructor <;> simp_all [need]

theorem Stopping.advance_passes (me : Nat) (o : Outside) (s s' : Supervisor) (t : Stopping)
    (next : Stage) (moved : t.advance me o s = some (s', next)) :
    Passes me t.need o s t.hold s' next.hold := by
  cases t with
  | lock | take =>
    simp only [advance] at moved
    split at moved <;> cases moved
    all_goals constructor <;> simp_all [need]
  | publish =>
    cases moved
    -- whatever the status was, it is not running afterwards
    cases status : s.status.value
    all_goals constructor <;> simp_all [need]
  | tearDown | settle | release =>
    cases moved
    constructor <;> simp_all [need]

theorem Asking.advance_passes (me : Nat) (o : Outside) (s s' : Supervisor) (a : Asking)
    (next : Stage) (moved : a.advance me o s = some (s', next)) :
    Passes me (a.need s) o s a.hold s' next.hold := by
  cases a with
  | reap r =>
    simp only [advance, Option.map_eq_some_iff] at moved
    obtain ⟨⟨s1, inner⟩, removed, same⟩ := moved
    cases same
    have passes := r.advance_passes me o s s1 inner removed
    cases inner <;> exact passes
  | lock =>
    simp only [advance] at moved
    split at moved <;> cases moved
    constructor <;> simp_all [need]
  | answer =>
    cases moved
    constructor <;> simp_all [need]

end

/-- What any stage of any call may do to the session. -/
theorem Stage.advance_passes (me : Nat) (o : Outside) (s s' : Supervisor) (stage next : Stage)
    (moved : stage.advance me o s = some (s', next)) :
    Passes me (stage.need s) o s stage.hold s' next.hold := by
  cases stage with
  | build p b => exact b.advance_passes me o s s' p next moved
  | run p r => exact r.advance_passes me o s s' p next moved
  | stop t => exact t.advance_passes me o s s' next moved
  | isRunning a => exact a.advance_passes me o s s' next moved
  | done answer => cases moved

/-- How many more turns a removal has the lock. -/
def Reaping.turns : Reaping → Nat
  | .lock => 0
  | .inspect => 4
  | .tearDown _ => 3
  | .settle _ => 2
  | .release => 1

/-- How many more turns a removal has the lock that may have ended. -/
def Reaping.turnsOf? (r : Option Reaping) : Nat := (r.map turns).getD 0

/-- How many more turns a call that serves a project has the lock, at most. -/
def Serving.turns : Serving → Nat
  | .look | .lock => 0
  | .take => 9
  | .replace _ => 8
  | .settle _ => 7
  | .check => 6
  | .serve => 5
  | .adopt _ => 4
  | .drop _ => 3
  | .store _ | .giveUp _ | .fail _ => 2
  | .release _ => 1

/-- How many more turns a stop has the lock, at most. -/
def Stopping.turns : Stopping → Nat
  | .lock => 0
  | .take => 5
  | .tearDown _ => 4
  | .settle _ => 3
  | .publish => 2
  | .release => 1

/-- How many more turns a call has the lock, at most. -/
def Stage.turns : Stage → Nat
  | .build _ (.reap r) | .isRunning (.reap r) => r.turns
  | .run _ r => r.turns
  | .stop t => t.turns
  | .isRunning .answer => 1
  | _ => 0

section

attribute [local simp] Hold.holds Reaping.hold Building.hold Serving.hold Stopping.hold Asking.hold
  Stage.hold Reaping.turns Reaping.turnsOf? Serving.turns Stopping.turns Stage.turns

theorem Reaping.advance_of_holds (me : Nat) (o : Outside) (s : Supervisor) (r : Reaping)
    (held : r.hold.holds = true) : ∃ s' next, r.advance me o s = some (s', next) ∧
      turnsOf? next < r.turns := by
  cases r with
  | lock => cases held
  | inspect =>
    simp only [advance]
    split
    · split <;> exact ⟨_, _, rfl, by simp⟩
    · exact ⟨_, _, rfl, by simp⟩
  | tearDown | settle | release => exact ⟨_, _, rfl, by simp⟩

theorem Serving.advance_of_holds (me : Nat) (o : Outside) (s : Supervisor) (p : Project)
    (r : Serving) (held : r.hold.holds = true) :
    ∃ s' next, r.advance me o s p = some (s', next) ∧ next.turns < r.turns := by
  cases r with
  | look | lock => cases held
  | take | check | serve | adopt =>
    simp only [advance]
    split <;> exact ⟨_, _, rfl, by simp⟩
  | replace | settle | store | drop | giveUp | fail | release => exact ⟨_, _, rfl, by simp⟩

theorem Stopping.advance_of_holds (me : Nat) (o : Outside) (s : Supervisor) (t : Stopping)
    (held : t.hold.holds = true) : ∃ s' next, t.advance me o s = some (s', next) ∧
      next.turns < t.turns ∧
      ((∃ t', next = .stop t' ∧ t'.hold.holds = true) ∨ next = .done true) := by
  cases t with
  | lock => cases held
  | take =>
    simp only [advance]
    split <;> exact ⟨_, _, rfl, by simp, .inl ⟨_, rfl, by simp⟩⟩
  | tearDown | settle | publish => exact ⟨_, _, rfl, by simp, .inl ⟨_, rfl, by simp⟩⟩
  | release => exact ⟨_, _, rfl, by simp, .inr rfl⟩

/-- A call that has the lock goes on whatever it is answered, and gets nearer to giving it back. -/
theorem Stage.advance_of_holds (me : Nat) (o : Outside) (s : Supervisor) (stage : Stage)
    (held : stage.hold.holds = true) :
    ∃ s' next, stage.advance me o s = some (s', next) ∧ next.turns < stage.turns := by
  cases stage with
  | build p b =>
    cases b with
    | reap r =>
      obtain ⟨s', next, moved, less⟩ := r.advance_of_holds me o s held
      refine ⟨s', _, congrArg (Option.map _) moved, ?_⟩
      cases next <;> exact less
    | _ => cases held
  | run p r => exact r.advance_of_holds me o s p held
  | stop t =>
    obtain ⟨s', next, moved, less, -⟩ := t.advance_of_holds me o s held
    exact ⟨s', next, moved, less⟩
  | isRunning a =>
    cases a with
    | reap r =>
      obtain ⟨s', next, moved, less⟩ := r.advance_of_holds me o s held
      refine ⟨s', _, congrArg (Option.map _) moved, ?_⟩
      cases next <;> exact less
    | lock => cases held
    | answer => exact ⟨_, _, rfl, by simp⟩
  | done answer => cases held

end

end Workbench
