import Workbench.Proofs.Project.Persistence
import Workbench.Proofs.Supervisor.Status

/-! What becomes of an accepted build. It is never held up, nothing else changes the status while
it lasts, and it ends by publishing what the strategy said, after the record of it was written. -/
namespace Workbench

namespace Building

/-- How many stages an accepted build has left. -/
def left : Building → Nat
  | .find => 5
  | .work => 4
  | .wrap _ => 3
  | .keep _ => 2
  | .publish _ => 1
  | _ => 0

theorem left_pos (b : Building) (accepted : b.isAccepted = true) : 0 < b.left := by
  cases b with
  | look | reap | enter => cases accepted
  | _ => simp [left]

/-- Whether a build is not decided yet. -/
def isOpen : Building → Bool
  | .wrap _ | .keep _ | .publish _ => false
  | _ => true

/-- The record of a build that ended at a time. -/
def record (kind : StrategyKind) (time : Int) (success : Bool) : BuildRecord :=
  ⟨time, outcome success, kind, (status success).message?.getD ""⟩

/-- An accepted build goes on to an accepted build with less to do, or publishes its outcome. -/
theorem advance_left (me : Nat) (o : Outside) (s s' : Supervisor) (p : Project) (b : Building)
    (next : Stage) (accepted : b.isAccepted = true) (moved : b.advance me o s p = some (s', next)) :
    (∃ b', next = .build p b' ∧ b'.isAccepted = true ∧ b'.left < b.left) ∨
      ∃ success, b = .publish success ∧ next = .done success := by
  cases b with
  | look | reap | enter => cases accepted
  | find | wrap | work =>
    simp only [advance] at moved
    left
    split at moved <;> cases moved
    · exact ⟨_, rfl, rfl, by simp [Building.left]⟩
    · exact ⟨_, rfl, rfl, by simp [Building.left]⟩
  | keep success =>
    cases moved
    exact .inl ⟨_, rfl, rfl, by simp [Building.left]⟩
  | publish success =>
    cases moved
    exact .inr ⟨success, rfl, rfl⟩

/-- An accepted build is never held up. -/
theorem advance_isSome (me : Nat) (o : Outside) (s : Supervisor) (p : Project) (b : Building)
    (accepted : b.isAccepted = true) : (b.advance me o s p).isSome := by
  cases b with
  | look | reap | enter => cases accepted
  | find | wrap | work =>
    simp only [advance]
    split <;> rfl
  | keep | publish => rfl

/-- A build that has not been accepted is not decided by the next stage. -/
theorem advance_isOpen (me : Nat) (o : Outside) (s s' : Supervisor) (p : Project) (b b' : Building)
    (early : b.isAccepted = false) (moved : b.advance me o s p = some (s', .build p b')) :
    b'.isOpen = true := by
  cases b with
  | look =>
    cases moved
    split <;> rfl
  | reap r =>
    simp only [advance, Option.map_eq_some_iff] at moved
    obtain ⟨⟨s1, next⟩, -, same⟩ := moved
    cases same
    cases next <;> rfl
  | enter =>
    simp only [advance] at moved
    split at moved <;> cases moved
    rfl
  | _ => cases early

end Building

/-- Only a build goes on as a build, and it stays with its project. -/
theorem Stage.build_of_advance (me : Nat) (o : Outside) (s s' : Supervisor) (stage : Stage)
    (p : Project) (b : Building) (moved : stage.advance me o s = some (s', .build p b)) :
    ∃ b', stage = .build p b' := by
  rcases stage.request_of_advance me o s s' _ moved with same | ⟨answer, ended⟩
  · cases stage with
    | build q b' =>
      cases same
      exact ⟨b', rfl⟩
    | _ => cases same
  · cases ended

/-- Only an accepted build writes to the disk. -/
theorem Stage.disk_of_not_accepted (s : Supervisor) (stage : Stage) (kind : StrategyKind)
    (time : Int) (d : Disk) (other : stage.isAccepted = false) :
    (stage.need s).disk kind time d = d := by
  have removal (r : Reaping) : (r.need s).disk kind time d = d := by
    cases r with
    | inspect =>
      simp only [Reaping.need]
      split <;> rfl
    | _ => rfl
  cases stage with
  | build p b =>
    cases b with
    | reap r => exact removal r
    | look | enter => rfl
    | _ => cases other
  | run p r => cases r <;> rfl
  | stop t => cases t <;> rfl
  | isRunning a =>
    cases a with
    | reap r => exact removal r
    | _ => rfl
  | done answer => rfl

namespace World

/-- Whether the strategy has told a call that its build succeeded. -/
def WasBuilt (w : World) (id : Nat) (p : Project) : Prop :=
  ∃ o before after, .turn id (.build p .work) o before after ∈ w.past ∧ o.built = .finished true

/-- Whether a call has found the directory of its project after the build. -/
def WasFound (w : World) (id : Nat) (p : Project) : Prop :=
  ∃ success o before after, .turn id (.build p (.wrap success)) o before after ∈ w.past ∧
    p.isThere before = true

/-- A call has written the record of its build. If that succeeded, the record reads back exactly
if the temporary file was reached without the entry of the record, and it still does unless other
programs have changed it. -/
def IsRecorded (w : World) (kind : StrategyKind) (id : Nat) (p : Project) (success : Bool) : Prop :=
  ∃ newer older o time before result after,
    w.past = newer ++ .turn id (.build p (.keep success)) o before after :: older ∧
    BuildRecord.save p.path (Building.record kind time success) before = (result, after) ∧
    (result = .ok () →
      (after.readText (BuildRecord.file p.path) =
          .ok (Building.record kind time success).toJson.render ↔
        before.IsApart (BuildRecord.file p.path)
          (Building.record kind time success).toJson.render.toUTF8)) ∧
    ((∀ d d', .other d d' ∈ newer →
        d'.readText (BuildRecord.file p.path) = d.readText (BuildRecord.file p.path)) →
      w.disk.readText (BuildRecord.file p.path) = after.readText (BuildRecord.file p.path))

/-- What a build remembers at each stage. -/
def Remembers (w : World) (kind : StrategyKind) (id : Nat) (p : Project) : Building → Prop
  | .wrap success => (success = true ↔ w.WasBuilt id p) ∧ ¬w.WasFound id p
  | .keep success => success = true ↔ w.WasBuilt id p
  | .publish success =>
    (success = true ↔ w.WasBuilt id p) ∧ (w.WasFound id p → w.IsRecorded kind id p success)
  | _ => ¬w.WasBuilt id p ∧ ¬w.WasFound id p

/-- What has happened in a call so far, by how far it has come. -/
def History (w : World) (kind : StrategyKind) (id : Nat) : Option Stage → Prop
  | none => ∀ stage o before after, .turn id stage o before after ∉ w.past
  | some (.build p b) => w.Remembers kind id p b
  | _ => True

variable {kind : StrategyKind} {w w' : World}

section

variable {id : Nat} {p : Project} {success : Bool} {news : List Event}

/-- What was written is still there, unless other programs have changed it since. -/
theorem IsRecorded.mono (recorded : w.IsRecorded kind id p success)
    (past : w'.past = news ++ w.past) (disk : .other w.disk w'.disk ∈ news ∨ w'.disk = w.disk) :
    w'.IsRecorded kind id p success := by
  obtain ⟨newer, older, o, time, before, result, after, split, saved, reads, kept⟩ := recorded
  refine ⟨news ++ newer, older, o, time, before, result, after,
    by rw [past, split, List.append_assoc], saved, reads, fun spared => ?_⟩
  have earlier := kept fun d d' listed => spared d d' (List.mem_append_right _ listed)
  -- either other programs have spared the record, or the disk is as it was
  rcases disk with written | same
  · rw [spared w.disk w'.disk (List.mem_append_left _ written), earlier]
  · rw [same, earlier]

theorem disk_turned_keep (id : Nat) (p : Project) (success : Bool) (o : Outside) (time : Int)
    (s : Supervisor) (next : Stage) :
    (w.turned kind id (.build p (.keep success)) o time s next).disk =
      (BuildRecord.save p.path (Building.record kind time success) w.disk).2 := by
  simp only [turned, Stage.need, Building.need, Need.disk, Building.record]

/-- The record of a build is the newest event right after it was written. -/
theorem isRecorded_of_keep (id : Nat) (p : Project) (success : Bool) (o : Outside) (time : Int)
    (s : Supervisor) (next : Stage) :
    (w.turned kind id (.build p (.keep success)) o time s next).IsRecorded kind id p success := by
  let w' := w.turned kind id (.build p (.keep success)) o time s next
  cases saved : BuildRecord.save p.path (Building.record kind time success) w.disk with
  | mk result after =>
    have disk : w'.disk = after := by rw [disk_turned_keep, saved]
    refine ⟨[], w.past, o, time, w.disk, result, after, ?_, saved, ?_, fun _ => by rw [disk]⟩
    · rw [← disk, List.nil_append]
      exact past_turned _ _ _ _ _ _
    · rintro rfl
      exact BuildRecord.readText_save_iff p.path _ w.disk after saved

theorem wasBuilt_turned (id : Nat) (p : Project) (b : Building) (o : Outside) (time : Int)
    (s : Supervisor) (next : Stage) :
    (w.turned kind id (.build p b) o time s next).WasBuilt id p ↔
      (b = .work ∧ o.built = .finished true) ∨ w.WasBuilt id p := by
  constructor
  · rintro ⟨o', before, after, member, ended⟩
    rcases List.mem_cons.mp member with new | old
    · cases new
      exact .inl ⟨rfl, ended⟩
    · exact .inr ⟨o', before, after, old, ended⟩
  · rintro (⟨rfl, ended⟩ | ⟨o', before, after, member, ended⟩)
    · exact ⟨o, w.disk, _, List.mem_cons_self, ended⟩
    · exact ⟨o', before, after, List.mem_cons_of_mem _ member, ended⟩

theorem wasFound_turned (id : Nat) (p : Project) (b : Building) (o : Outside) (time : Int)
    (s : Supervisor) (next : Stage) :
    (w.turned kind id (.build p b) o time s next).WasFound id p ↔
      ((∃ success, b = .wrap success) ∧ p.isThere w.disk = true) ∨ w.WasFound id p := by
  constructor
  · rintro ⟨success, o', before, after, member, there⟩
    rcases List.mem_cons.mp member with new | old
    · cases new
      exact .inl ⟨⟨success, rfl⟩, there⟩
    · exact .inr ⟨success, o', before, after, old, there⟩
  · rintro (⟨⟨success, rfl⟩, there⟩ | ⟨success, o', before, after, member, there⟩)
    · exact ⟨success, o, w.disk, _, List.mem_cons_self, there⟩
    · exact ⟨success, o', before, after, List.mem_cons_of_mem _ member, there⟩

theorem remembers_of_isOpen (b : Building) (isOpen : b.isOpen = true)
    (undone : ¬w.WasBuilt id p ∧ ¬w.WasFound id p) : w.Remembers kind id p b := by
  cases b with
  | wrap | keep | publish => cases isOpen
  | _ => exact undone

/-- A build that goes on remembers what it has done. -/
theorem Remembers.turned (b b' : Building) (o : Outside) (time : Int) (s : Supervisor)
    (truly : ((Stage.build p b).need w.supervisor).IsTrue o w.disk)
    (moved : b.advance id o w.supervisor p = some (s, .build p b'))
    (remembers : w.Remembers kind id p b) :
    (w.turned kind id (.build p b) o time s (.build p b')).Remembers kind id p b' := by
  let w' := w.turned kind id (.build p b) o time s (.build p b')
  have built : w'.WasBuilt id p ↔ _ := wasBuilt_turned id p b o time s (.build p b')
  have found : w'.WasFound id p ↔ _ := wasFound_turned id p b o time s (.build p b')
  cases b with
  | look | reap | enter =>
    have undone : ¬w'.WasBuilt id p ∧ ¬w'.WasFound id p := by
      simpa [built, found, Remembers] using remembers
    exact remembers_of_isOpen b' (Building.advance_isOpen id o _ s p _ b' rfl moved) undone
  | find =>
    have undone : ¬w'.WasBuilt id p ∧ ¬w'.WasFound id p := by
      simpa [built, found, Remembers] using remembers
    simp only [Building.advance] at moved
    split at moved <;> cases moved
    · exact undone
    · exact ⟨iff_of_false Bool.false_ne_true undone.1, undone.2⟩
  | work =>
    -- the answer of this turn is the only one that the strategy has given
    have told : w'.WasBuilt id p ↔ o.built = .finished true := by simp [built, remembers.1]
    have unfound : ¬w'.WasFound id p := by simpa [found] using remembers.2
    simp only [Building.advance] at moved
    split at moved
    next success ended =>
      cases moved
      exact ⟨by simp [w', told, ended], unfound⟩
    next why ended =>
      cases moved
      exact ⟨by simp [w', told, ended], unfound⟩
  | wrap success =>
    have outcome : success = true ↔ w'.WasBuilt id p := by simpa [built] using remembers.1
    simp only [Building.advance] at moved
    split at moved
    · cases moved
      exact outcome
    next missing =>
      cases moved
      -- the answer that led here was that the directory is missing
      have gone : ¬p.isThere w.disk = true := fun there => missing (truly.trans there)
      have unfound : ¬w'.WasFound id p := by simp [found, gone, remembers.2]
      exact ⟨outcome, fun again => absurd again unfound⟩
  | keep success =>
    have outcome : success = true ↔ w'.WasBuilt id p := by
      simpa [built, Remembers] using remembers
    cases moved
    exact ⟨outcome, fun _ => isRecorded_of_keep id p success o time _ _⟩
  | publish success => cases moved

/-- A call that is spared remembers what it did. -/
theorem History.spared (stage? : Option Stage) (spares : Spares id news w w')
    (disk : ∀ p success, stage? = some (.build p (.publish success)) →
      .other w.disk w'.disk ∈ news ∨ w'.disk = w.disk)
    (history : w.History kind id stage?) : w'.History kind id stage? := by
  have built (p : Project) : w'.WasBuilt id p ↔ w.WasBuilt id p := by
    simp only [WasBuilt, spares.turns]
  have found (p : Project) : w'.WasFound id p ↔ w.WasFound id p := by
    simp only [WasFound, spares.turns]
  cases stage? with
  | none =>
    intro stage o before after turn
    exact history stage o before after ((spares.turns stage o before after).mp turn)
  | some stage =>
    cases stage with
    | build p b =>
      have remembers : w.Remembers kind id p b := history
      suffices w'.Remembers kind id p b from this
      cases b with
      | publish success =>
        refine ⟨remembers.1.trans (built p).symm, fun again => ?_⟩
        exact (remembers.2 ((found p).mp again)).mono spares.past (disk p success rfl)
      | _ =>
        unfold Remembers at remembers ⊢
        simpa only [built p, found p] using remembers
    | _ => exact trivial

/-- While a build is about to publish, only other programs write to the disk. -/
theorem Reachable.disk_of_publish (reached : Reachable kind w) (step : Step kind w w')
    (spares : Spares id news w w') (under : w.calls id = some (.build p (.publish success))) :
    .other w.disk w'.disk ∈ news ∨ w'.disk = w.disk := by
  cases step with
  | begin | exit => exact .inr rfl
  | other log disk =>
    rw [spares.news_of_past _ rfl]
    exact .inl List.mem_cons_self
  | turn i stage next o time s under' truly moved =>
    -- another build would have to be accepted too
    have apart := spares.ne_of_turned i next o time s
    have mine : w.isAccepted id = true := by
      rw [isAccepted_of_calls id _ under]
      rfl
    have other : stage.isAccepted = false := by
      by_contra accepted
      have theirs : w.isAccepted i = true := by
        rw [isAccepted_of_calls i stage under']
        simpa using accepted
      exact apart (reached.exclusive.unique i id theirs mine)
    exact .inr (Stage.disk_of_not_accepted w.supervisor stage kind time w.disk other)

end

theorem Reachable.history (reached : Reachable kind w) (id : Nat) :
    w.History kind id (w.calls id) := by
  induction reached with
  | start log disk =>
    intro stage o before after turn
    cases turn
  | next w w' reached step ih =>
    cases step.sees id with
    | begun r unused =>
      have fresh : w.History kind id none := unused ▸ ih
      rw [calls_begin]
      cases r with
      | build p =>
        constructor
        · rintro ⟨o, before, after, turn, -⟩
          exact fresh _ o before after turn
        · rintro ⟨success, o, before, after, turn, -⟩
          exact fresh _ o before after turn
      | _ => exact trivial
    | turned stage next o time s under truly moved =>
      rw [under] at ih
      rw [calls_turned]
      cases next with
      | build p b' =>
        obtain ⟨b, rfl⟩ := Stage.build_of_advance id o w.supervisor s stage p b' moved
        exact Remembers.turned b b' o time s truly moved ih
      | _ => exact trivial
    | spared news w' spares =>
      rw [spares.calls]
      exact ih.spared _ spares fun p success under => reached.disk_of_publish step spares under

/-- A build publishes and answers what the strategy has said of it. If its project was still there,
its record was written before. -/
structure Publishes (kind : StrategyKind) (w w' : World) (id : Nat) (p : Project)
    (success : Bool) : Prop where
  under : w.calls id = some (.build p (.publish success))
  answer : w'.calls id = some (.done success)
  status : w'.supervisor.status.value = Building.status success
  told : success = true ↔ w.WasBuilt id p
  recorded : w.WasFound id p → w.IsRecorded kind id p success
  disk : w'.disk = w.disk

theorem Reachable.publishes (reached : Reachable kind w) (id : Nat) (p : Project) (success : Bool)
    (o : Outside) (time : Int) (s : Supervisor) (next : Stage)
    (under : w.calls id = some (.build p (.publish success)))
    (moved : Stage.advance id o w.supervisor (.build p (.publish success)) = some (s, next)) :
    Publishes kind w (w.turned kind id (.build p (.publish success)) o time s next) id p
      success := by
  have accepted : w.isAccepted id = true := by
    rw [isAccepted_of_calls id _ under]
    rfl
  have building := reached.exclusive.building.mpr ⟨id, accepted⟩
  have history := reached.history id
  rw [under] at history
  cases moved
  refine ⟨under, by simp [World.turned], ?_, history.1, history.2, rfl⟩
  simp [World.turned, building]

/-- Only the build that is going on ends the status that says so. -/
theorem Reachable.building_until_published (reached : Reachable kind w) (step : Step kind w w')
    (building : w.supervisor.status.value = .building) :
    w'.supervisor.status.value = .building ∨
      ∃ id p success, Publishes kind w w' id p success := by
  cases step with
  | begin | exit | other => exact .inl building
  | turn id stage next o time s under truly moved =>
    cases Stage.advance_marks id o w.supervisor s stage next moved with
    | quiet _ kept => exact .inl (kept.mpr building)
    | accepted _ _ idle => exact absurd building idle
    | published p success stageIs =>
      subst stageIs
      exact .inr ⟨id, p, success, reached.publishes id p success o time s next under moved⟩

/-- An accepted build can always go on. -/
theorem accepted_goes_on (id : Nat) (p : Project) (b : Building)
    (under : w.calls id = some (.build p b)) (accepted : b.isAccepted = true) :
    ∃ w', Step kind w w' ∧ w'.calls id ≠ w.calls id := by
  let o : Outside := { holds := p.isThere w.disk }
  have truly : ((Stage.build p b).need w.supervisor).IsTrue o w.disk := by
    cases b with
    | look | reap | enter => cases accepted
    | find | wrap => rfl
    | _ => exact trivial
  obtain ⟨⟨s, next⟩, moved⟩ :=
    Option.isSome_iff_exists.mp (b.advance_isSome id o w.supervisor p accepted)
  refine ⟨_, .turn w id (.build p b) next o 0 s under truly moved, ?_⟩
  have calls : (w.turned kind id (.build p b) o 0 s next).calls id = some next := by
    simp [World.turned]
  rw [calls, under]
  rcases Building.advance_left id o w.supervisor s p b next accepted moved with
    ⟨b', rfl, -, less⟩ | ⟨success, -, rfl⟩
  · rintro same
    cases same
    exact absurd less (Nat.lt_irrefl _)
  · simp

/-- Each step of an accepted build leaves less to be done, or publishes its outcome. -/
theorem Reachable.accepted_ends (reached : Reachable kind w) (id : Nat) (p : Project)
    (b : Building) (under : w.calls id = some (.build p b)) (accepted : b.isAccepted = true)
    (step : Step kind w w') (goes : w'.calls id ≠ w.calls id) :
    (∃ b', w'.calls id = some (.build p b') ∧ b'.isAccepted = true ∧ b'.left < b.left) ∨
      ∃ success, Publishes kind w w' id p success := by
  rcases step.calls under with same | ⟨o, time, s, next, moved, rfl⟩
  · exact absurd (same.trans under.symm) goes
  · rcases Building.advance_left id o w.supervisor s p b next accepted moved with
      ⟨b', rfl, still, less⟩ | ⟨success, rfl, -⟩
    · exact .inl ⟨b', calls_turned .., still, less⟩
    · exact .inr ⟨success, reached.publishes id p success o time s next under moved⟩

/-- The status is building exactly while there is one accepted build that has not published its
outcome. There is never another one, and nothing else changes the status meanwhile. The build can
always go on, with less left to do each time, and ends by publishing and answering what the
strategy has said of it. If its project was still there then, it has written the record of it
before; if that succeeded, the record can be read exactly if the temporary file was reached without
the entry of the record, and it still can unless other programs have changed it. -/
theorem accepted_build_publishes (reached : Reachable kind w) :
    (w.supervisor.status.value = .building ↔ ∃! id, w.isAccepted id = true) ∧
    (∀ i j, w.isAccepted i = true → w.isAccepted j = true → i = j) ∧
    (∀ w', Step kind w w' → w.supervisor.status.value = .building →
      w'.supervisor.status.value = .building ∨
        ∃ id p success, Publishes kind w w' id p success) ∧
    (∀ id p b, w.calls id = some (.build p b) → b.isAccepted = true →
      (∃ w', Step kind w w' ∧ w'.calls id ≠ w.calls id) ∧
      ∀ w', Step kind w w' → w'.calls id ≠ w.calls id →
        (∃ b', w'.calls id = some (.build p b') ∧ b'.isAccepted = true ∧ b'.left < b.left) ∨
          ∃ success, Publishes kind w w' id p success) := by
  have exclusive := reached.exclusive
  refine ⟨?_, exclusive.unique, fun w' step => reached.building_until_published step,
    fun id p b under accepted => ⟨accepted_goes_on id p b under accepted, fun w' step goes =>
      reached.accepted_ends id p b under accepted step goes⟩⟩
  rw [exclusive.building]
  constructor
  · rintro ⟨id, accepted⟩
    exact ⟨id, accepted, fun i other => exclusive.unique i id other accepted⟩
  · rintro ⟨id, accepted, -⟩
    exact ⟨id, accepted⟩

/-- A build of any project that is there can be decided either way. -/
theorem exists_decided (kind : StrategyKind) (p : Project) (d : Disk) (success : Bool)
    (there : p.isThere d = true) :
    ∃ w, Reachable kind w ∧ w.calls 0 = some (.build p (.wrap success)) ∧ w.disk = d := by
  let w1 := (World.start {} d).begin 0 (.build p)
  have begun : Reachable kind w1 := .next _ w1 (.start {} d) (.begin _ 0 (.build p) rfl)
  let w2 := w1.turned kind 0 (.build p .look) {} 0 w1.supervisor (.build p .enter)
  have looked : Reachable kind w2 := .next w1 w2 begun (.turn w1 0 _ _ {} 0 _ rfl trivial rfl)
  let building := w2.supervisor.publishIf (fun _ => true) .building
  let w3 := w2.turned kind 0 (.build p .enter) {} 0 building (.build p .find)
  have entered : Reachable kind w3 := .next w2 w3 looked (.turn w2 0 _ _ {} 0 _ rfl trivial rfl)
  let w4 := w3.turned kind 0 (.build p .find) { holds := true } 0 building (.build p .work)
  have found : Reachable kind w4 :=
    .next w3 w4 entered (.turn w3 0 _ _ { holds := true } 0 _ rfl there.symm rfl)
  let ended : Outside := { built := .finished success }
  let w5 := w4.turned kind 0 (.build p .work) ended 0 building (.build p (.wrap success))
  have worked : Reachable kind w5 := .next w4 w5 found (.turn w4 0 _ _ ended 0 _ rfl trivial rfl)
  exact ⟨w5, worked, rfl, rfl⟩

/-- A decided build whose project is still there comes to the point where it publishes, with the
record of it saved. -/
theorem exists_saved (kind : StrategyKind) (p : Project) (d : Disk) (success : Bool) (time : Int)
    (there : p.isThere d = true) :
    ∃ w older, Reachable kind w ∧ w.calls 0 = some (.build p (.publish success)) ∧
      w.WasFound 0 p ∧
      w.disk = (BuildRecord.save p.path (Building.record kind time success) d).2 ∧
      w.past = .turn 0 (.build p (.keep success)) {} d w.disk :: older := by
  obtain ⟨w, reached, under, rfl⟩ := exists_decided kind p d success there
  let w1 := w.turned kind 0 (.build p (.wrap success)) { holds := true } time w.supervisor
    (.build p (.keep success))
  have found : Step kind w w1 :=
    .turn w 0 _ _ { holds := true } time w.supervisor under there.symm rfl
  have under1 : w1.calls 0 = some (.build p (.keep success)) := by simp [w1, World.turned]
  let w2 := w1.turned kind 0 (.build p (.keep success)) {} time w1.supervisor
    (.build p (.publish success))
  have kept : Step kind w1 w2 := .turn w1 0 _ _ {} time w1.supervisor under1 trivial rfl
  have past : w2.past = .turn 0 (.build p (.keep success)) {} w.disk w2.disk :: w1.past :=
    past_turned _ _ _ _ _ _
  refine ⟨w2, w1.past, .next w1 w2 (.next w w1 reached found) kept, by simp [w2, World.turned],
    ⟨success, { holds := true }, w.disk, w1.disk, ?_, there⟩, ?_, past⟩
  · rw [past]
    exact List.mem_cons_of_mem _ List.mem_cons_self
  · exact disk_turned_keep _ _ _ _ _ _ _

/-- A project, and a disk with nothing but its directory. -/
def site : Project := ⟨"site", ⟨"/site"⟩, 0, 0⟩

def bareSite : Disk := ⟨[(["site"], .directory)], []⟩

/-- A disk on which the temporary name of the record is a link to the record. -/
def knottedSite : Disk :=
  ⟨[(["site"], .directory), (["site", ".bento"], .directory),
    (["site", ".bento", "state"], .directory),
    (["site", ".bento", "state", ".build.json.tmp"], .link ⟨"build.json"⟩)], []⟩

/-- A build that failed says so in the status, in the answer and in the record. -/
theorem failed_build_published : ∃ w w', Reachable .builtin w ∧ Step .builtin w w' ∧
    w.supervisor.status.value = .building ∧
    w'.supervisor.status.value = .error "Build failed" ∧ w'.calls 0 = some (.done false) ∧
    BuildRecord.load? w'.disk site.path = some ⟨0, .failed, .builtin, "Build failed"⟩ := by
  have there : site.isThere bareSite = true := by decide
  obtain ⟨w, older, reached, under, -, disk, -⟩ := exists_saved .builtin site bareSite false 0 there
  obtain ⟨-, -, -, ends⟩ := accepted_build_publishes reached
  obtain ⟨⟨w', step, goes⟩, publishes⟩ := ends 0 site _ under rfl
  have accepted : w.isAccepted 0 = true := by
    rw [isAccepted_of_calls 0 _ under]
    rfl
  refine ⟨w, w', reached, step, reached.exclusive.building.mpr ⟨0, accepted⟩, ?_⟩
  rcases publishes w' step goes with ⟨b', -, still, less⟩ | ⟨success, published⟩
  · -- nothing is left to be done but to publish
    have positive := b'.left_pos still
    have one : (Building.publish false).left = 1 := rfl
    omega
  · have same := published.under
    rw [under] at same
    cases same
    refine ⟨published.status, published.answer, ?_⟩
    rw [published.disk, disk]
    decide +kernel

/-- A record that was saved without a fault cannot be read after the temporary name was a link to
it: the link has taken the place of the record and leads to itself. -/
theorem record_lost_through_link : ∃ w older, Reachable .builtin w ∧
    w.calls 0 = some (.build site (.publish false)) ∧ w.WasFound 0 site ∧
    site.isThere w.disk = true ∧
    w.past = .turn 0 (.build site (.keep false)) {} knottedSite w.disk :: older ∧
    BuildRecord.save site.path (Building.record .builtin 0 false) knottedSite = (.ok (), w.disk) ∧
    BuildRecord.load? w.disk site.path = none := by
  have there : site.isThere knottedSite = true := by decide +kernel
  have saved : (BuildRecord.save site.path (Building.record .builtin 0 false) knottedSite).1.isOk =
      true := by decide +kernel
  obtain ⟨w, older, reached, under, found, disk, past⟩ :=
    exists_saved .builtin site knottedSite false 0 there
  refine ⟨w, older, reached, under, found, ?_, past, ?_, ?_⟩
  · rw [disk]
    decide +kernel
  · rw [disk]
    cases result : BuildRecord.save site.path (Building.record .builtin 0 false) knottedSite with
    | mk outcome after =>
      rw [result] at saved
      cases outcome with
      | ok done => rfl
      | error e => cases saved
  · rw [disk]
    decide +kernel

end World

end Workbench
