import Mathlib.Data.List.Infix
import Mathlib.Data.List.Nodup
import Workbench.Proofs.Log.Account

/-! The order in which a subscriber gets lines that are added at the same time. A line is added to the
text in one step and sent in another, and what others do may come between. The subscriber gets the
lines in the order in which they are sent. This is their order in the text as long as no line is added
to the text before those above it are sent. -/
namespace Workbench.Log

open Broadcast (Carries Follows)
open scoped List

/-- A turn of those who share a log: one of the calls that add a line, by its number, adds it to the
text or sends it, somebody subscribes, or somebody asks for the next line. -/
inductive Turn where
  | append (call : Nat)
  | send (call : Nat)
  | subscribe
  | receive (subscriber : Nat)
  deriving DecidableEq

/-- A log, the calls that have added their line to the text and those that have sent it, in the order
in which they did, and what a certain subscriber was told. -/
structure Writing where
  log : Log
  begun : List Nat := []
  ended : List Nat := []
  told : List Reception := []

theorem send_text (log : Log) (line : String) : (log.send line).text = log.text := by
  simp only [send]

namespace Writing

/-- A log that has just got a subscriber. -/
def start (before : List Step) : Writing := { log := (run before).subscribe.2 }

variable (lineOf : Nat → String) (reader : Nat)

/-- A call adds its line to the text once, and then sends it once. -/
def turn? (state : Writing) : Turn → Option Writing
  | .append call =>
    if call ∈ state.begun then none
    else some { state with
      log := state.log.append (lineOf call), begun := state.begun ++ [call] }
  | .send call =>
    if call ∈ state.begun ∧ call ∉ state.ended then
      some { state with log := state.log.send (lineOf call), ended := state.ended ++ [call] }
    else none
  | .subscribe => some { state with log := state.log.subscribe.2 }
  | .receive subscriber =>
    some { state with
      log := (state.log.receive subscriber).2
      told := state.told ++ state.log.toldIn reader (.receive subscriber) }

def play? (state : Writing) (turns : List Turn) : Option Writing :=
  turns.foldlM (turn? lineOf reader) state

variable {lineOf reader} {state state' : Writing} {turns : List Turn}

theorem play?_append_iff (front back : List Turn) :
    state.play? lineOf reader (front ++ back) = some state' ↔
      ∃ middle, state.play? lineOf reader front = some middle ∧
        middle.play? lineOf reader back = some state' := by
  rw [play?, List.foldlM_append]
  exact Option.bind_eq_some_iff

theorem play?_singleton (turn : Turn) :
    state.play? lineOf reader [turn] = state.turn? lineOf reader turn := by
  simp [play?]

theorem turn?_append_iff (call : Nat) :
    state.turn? lineOf reader (.append call) = some state' ↔
      call ∉ state.begun ∧ state' = { state with
        log := state.log.append (lineOf call), begun := state.begun ++ [call] } := by
  simp [turn?, eq_comm]

theorem turn?_send_iff (call : Nat) :
    state.turn? lineOf reader (.send call) = some state' ↔
      (call ∈ state.begun ∧ call ∉ state.ended) ∧ state' = { state with
        log := state.log.send (lineOf call), ended := state.ended ++ [call] } := by
  simp [turn?, eq_comm]

/-- What holds of the log and the calls in every state. The broadcast carries the lines in the order in
which they were sent. -/
structure Sound (lineOf : Nat → String) (before : List Step) (state : Writing) : Prop where
  text : state.log.text = (run before).text ++ textOf (state.begun.map lineOf)
  begun_nodup : state.begun.Nodup
  ended_nodup : state.ended.Nodup
  ended_subset : state.ended ⊆ state.begun
  carries : state.log.live.Carries (added before ++ state.ended.map lineOf)
  follows : ∃ next, state.log.live.Follows (added before ++ state.ended.map lineOf)
    (run before).live.next.length (added before).length state.told next

variable {before : List Step}

theorem sound_start : (start before).Sound lineOf before := by
  have carries := carries_run before
  have follows := Broadcast.follows_subscribe carries [] (by simp)
  refine ⟨?_, List.nodup_nil, List.nodup_nil, List.Subset.refl _, ?_, (added before).length, ?_⟩
  · change (run before).text = (run before).text ++ ""
    rw [String.append_empty]
  · rw [start, List.map_nil, List.append_nil]
    exact carries.subscribe
  · rw [start, List.map_nil, List.append_nil]
    exact follows

theorem Sound.turn (sound : state.Sound lineOf before) (turn : Turn)
    (turned : state.turn? lineOf (run before).live.next.length turn = some state') :
    state'.Sound lineOf before := by
  obtain ⟨next, follows⟩ := sound.follows
  -- only sending a line and asking for one change what the subscriber is waiting for
  cases turn with
  | append call =>
    obtain ⟨fresh, rfl⟩ := (turn?_append_iff call).mp turned
    refine { sound with text := ?_, begun_nodup := ?_, ended_subset := ?_ }
    · rw [List.map_append, textOf_append, ← String.append_assoc, ← sound.text, List.map_singleton,
        textOf_singleton, ← String.append_assoc]
      rfl
    · rw [← List.concat_eq_append]
      exact sound.begun_nodup.concat fresh
    · exact List.subset_append_of_subset_left _ sound.ended_subset
  | send call =>
    obtain ⟨⟨there, fresh⟩, rfl⟩ := (turn?_send_iff call).mp turned
    refine ⟨?_, sound.begun_nodup, ?_, ?_, ?_, next, ?_⟩
    · dsimp only
      rw [send_text, sound.text]
    · rw [← List.concat_eq_append]
      exact sound.ended_nodup.concat fresh
    · exact List.append_subset.mpr ⟨sound.ended_subset, by simpa using there⟩
    · rw [List.map_append, ← List.append_assoc]
      exact sound.carries.send _
    · rw [List.map_append, ← List.append_assoc]
      exact follows.send _ (by simp)
  | subscribe =>
    cases turned
    exact { sound with carries := sound.carries.subscribe, follows := ⟨next, follows.subscribe⟩ }
  | receive subscriber =>
    cases turned
    refine { sound with carries := sound.carries.receive subscriber, follows := ?_ }
    by_cases own : subscriber = (run before).live.next.length
    · subst own
      rw [toldIn, if_pos rfl]
      exact ⟨_, follows.receive_self sound.carries⟩
    · rw [toldIn, if_neg own, List.append_nil]
      exact ⟨next, follows.receive_other subscriber own⟩

theorem Sound.play (sound : state.Sound lineOf before)
    (played : state.play? lineOf (run before).live.next.length turns = some state') :
    state'.Sound lineOf before := by
  induction turns using List.reverseRecOn generalizing state' with
  | nil =>
    cases played
    exact sound
  | append_singleton turns turn ih =>
    obtain ⟨middle, earlier, last⟩ := (play?_append_iff turns [turn]).mp played
    exact (ih earlier).turn turn ((play?_singleton turn).symm.trans last)

/-- What a call has done stays done, and comes before what is done later. -/
theorem turn?_prefix (turn : Turn) (turned : state.turn? lineOf reader turn = some state') :
    state.begun <+: state'.begun ∧ state.ended <+: state'.ended := by
  cases turn with
  | append call =>
    obtain ⟨_, rfl⟩ := (turn?_append_iff call).mp turned
    exact ⟨List.prefix_append _ _, List.prefix_refl _⟩
  | send call =>
    obtain ⟨_, rfl⟩ := (turn?_send_iff call).mp turned
    exact ⟨List.prefix_refl _, List.prefix_append _ _⟩
  | subscribe =>
    cases turned
    exact ⟨List.prefix_refl _, List.prefix_refl _⟩
  | receive subscriber =>
    cases turned
    exact ⟨List.prefix_refl _, List.prefix_refl _⟩

theorem play?_prefix (played : state.play? lineOf reader turns = some state') :
    state.begun <+: state'.begun ∧ state.ended <+: state'.ended := by
  induction turns using List.reverseRecOn generalizing state' with
  | nil =>
    cases played
    exact ⟨List.prefix_refl _, List.prefix_refl _⟩
  | append_singleton turns turn ih =>
    obtain ⟨middle, earlier, last⟩ := (play?_append_iff turns [turn]).mp played
    obtain ⟨begun, ended⟩ := turn?_prefix turn ((play?_singleton turn).symm.trans last)
    exact ⟨(ih earlier).1.trans begun, (ih earlier).2.trans ended⟩

/-- A call has added its line, or sent it, only in a turn of its own. -/
theorem mem_turn?_iff (turn : Turn) (turned : state.turn? lineOf reader turn = some state')
    (call : Nat) :
    (call ∈ state'.begun ↔ call ∈ state.begun ∨ turn = .append call) ∧
      (call ∈ state'.ended ↔ call ∈ state.ended ∨ turn = .send call) := by
  cases turn with
  | append other =>
    obtain ⟨_, rfl⟩ := (turn?_append_iff other).mp turned
    simp [eq_comm]
  | send other =>
    obtain ⟨_, rfl⟩ := (turn?_send_iff other).mp turned
    simp [eq_comm]
  | subscribe =>
    cases turned
    simp
  | receive subscriber =>
    cases turned
    simp

theorem mem_play?_iff (played : (start before).play? lineOf reader turns = some state)
    (call : Nat) :
    (call ∈ state.begun ↔ .append call ∈ turns) ∧ (call ∈ state.ended ↔ .send call ∈ turns) := by
  induction turns using List.reverseRecOn generalizing state with
  | nil =>
    cases played
    simp [start]
  | append_singleton turns turn ih =>
    obtain ⟨middle, earlier, last⟩ := (play?_append_iff turns [turn]).mp played
    obtain ⟨begun, ended⟩ := mem_turn?_iff turn ((play?_singleton turn).symm.trans last) call
    rw [begun, ended, (ih earlier).1, (ih earlier).2, List.mem_append, List.mem_append,
      List.mem_singleton, List.mem_singleton, @eq_comm _ turn, @eq_comm _ turn]
    exact ⟨Iff.rfl, Iff.rfl⟩

end Writing

open Writing

/-- One call has sent its line before another adds its own to the text. -/
def Precedes (turns : List Turn) (first second : Nat) : Prop :=
  ∃ earlier later, turns = earlier ++ .append second :: later ∧ .send first ∈ earlier

/-- No call adds its line to the text before those that have done so have sent theirs. -/
def OneByOne (turns : List Turn) : Prop :=
  ∀ earlier second later, turns = earlier ++ .append second :: later →
    ∀ first, .append first ∈ earlier → .send first ∈ earlier

variable {before : List Step} {lineOf : Nat → String} {turns : List Turn} {state : Writing}

theorem sublist_of_precedes
    (played : (start before).play? lineOf (run before).live.next.length turns = some state)
    {first second : Nat} (precedes : Precedes turns first second) (sent : .send second ∈ turns) :
    [first, second] <+ state.begun ∧ [first, second] <+ state.ended := by
  obtain ⟨earlier, later, rfl, first_sent⟩ := precedes
  obtain ⟨middle, front, rest⟩ := (play?_append_iff earlier _).mp played
  obtain ⟨next, turned, back⟩ := (play?_append_iff [.append second] later).mp rest
  rw [play?_singleton, turn?_append_iff] at turned
  obtain ⟨fresh, rfl⟩ := turned
  have sound := sound_start.play front
  have first_ended : first ∈ middle.ended := (mem_play?_iff front first).2.mpr first_sent
  obtain ⟨⟨begun, begun_eq⟩, ended, ended_eq⟩ := play?_prefix back
  constructor
  · -- the first call has added its line, as it has sent it, and the second adds its own now
    rw [← begun_eq]
    have both : [first] ++ [second] <+ middle.begun ++ [second] :=
      (List.singleton_sublist.mpr (sound.ended_subset first_ended)).append (List.Sublist.refl _)
    exact both.trans (List.sublist_append_left _ _)
  · -- the second call is among those that send after it has added its line
    have second_ended : second ∈ ended := by
      have member := (mem_play?_iff played second).2.mpr sent
      rw [← ended_eq, List.mem_append] at member
      exact member.resolve_left fun already => fresh (sound.ended_subset already)
    rw [← ended_eq]
    exact (List.singleton_sublist.mpr first_ended).append (List.singleton_sublist.mpr second_ended)

theorem prefix_of_oneByOne
    (played : (start before).play? lineOf (run before).live.next.length turns = some state)
    (one : OneByOne turns) : state.ended = state.begun ∨ ∃ call, state.begun = state.ended ++ [call] := by
  -- at most one call has added its line to the text and not sent it yet
  induction turns using List.reverseRecOn generalizing state with
  | nil =>
    cases played
    exact .inl rfl
  | append_singleton turns turn ih =>
    obtain ⟨middle, earlier, last⟩ := (play?_append_iff turns [turn]).mp played
    rw [play?_singleton] at last
    have sound := sound_start.play earlier
    have so_far := ih earlier fun earlier second later split => one earlier second (later ++ [turn])
      (by rw [split, List.append_assoc, List.cons_append])
    cases turn with
    | append call =>
      obtain ⟨fresh, rfl⟩ := (turn?_append_iff call).mp last
      rcases so_far with same | ⟨open_call, pending⟩
      · exact .inr ⟨call, by rw [same]⟩
      · -- the call that has not sent its line keeps this one from adding its own
        have there : open_call ∈ middle.begun := by simp [pending]
        have sent : open_call ∈ middle.ended := (mem_play?_iff earlier open_call).2.mpr
          (one turns call [] rfl open_call ((mem_play?_iff earlier open_call).1.mp there))
        have twice := sound.begun_nodup
        rw [pending, List.nodup_append] at twice
        exact absurd rfl (twice.2.2 open_call sent open_call (List.mem_singleton_self _))
    | send call =>
      obtain ⟨⟨there, fresh⟩, rfl⟩ := (turn?_send_iff call).mp last
      rcases so_far with same | ⟨open_call, pending⟩
      · exact absurd (same ▸ there) fresh
      · rw [pending, List.mem_append, List.mem_singleton] at there
        have same : call = open_call := there.resolve_left fresh
        exact .inl (by rw [same, pending])
    | subscribe =>
      cases last
      exact so_far
    | receive subscriber =>
      cases last
      exact so_far

/-- A subscriber that never lags gets the lines in the order in which they were sent, each of them
once, and it has got them all when there is nothing more to get. Of two lines, the one whose call has
sent it before the other was added to the text stands first in the text and is got first. When the
calls come one by one, the lines are got in the order of the text. -/
theorem lines_in_order
    (played : (start before).play? lineOf (run before).live.next.length turns = some state)
    (steady : ∀ lost, .lagged lost ∉ state.told) :
    ∃ unread,
      state.log.text = (run before).text ++ textOf (state.begun.map lineOf) ∧
      state.told.filterMap Reception.line? ++ unread = state.ended.map lineOf ∧
      ((state.log.receive (run before).live.next.length).1 = .empty → unread = []) ∧
      (state.begun.Nodup ∧ ∀ call, call ∈ state.begun ↔ .append call ∈ turns) ∧
      (state.ended.Nodup ∧ ∀ call, call ∈ state.ended ↔ .send call ∈ turns) ∧
      (∀ first second, Precedes turns first second → .send second ∈ turns →
        [first, second] <+ state.begun ∧ [first, second] <+ state.ended) ∧
      (OneByOne turns → state.ended <+: state.begun) := by
  have sound := sound_start.play played
  obtain ⟨next, follows⟩ := sound.follows
  obtain ⟨parts, covers, whole⟩ := follows.covers
  have received := Reception.covers_of_steady state.told parts covers steady
  rw [List.drop_left] at whole
  -- no line was lost, so that what it got and what it has still to get is all that was sent
  refine ⟨_, sound.text, by rw [received]; exact whole.symm, ?_,
    ⟨sound.begun_nodup, fun call => (mem_play?_iff played call).1⟩,
    ⟨sound.ended_nodup, fun call => (mem_play?_iff played call).2⟩,
    fun first second => sublist_of_precedes played, ?_⟩
  · intro nothing
    rw [receive, follows.receive_eq] at nothing
    exact sound.carries.drop_of_empty next follows.within nothing
  · -- the lines that were sent are those of the text, but for the last one it may be
    intro one
    rcases prefix_of_oneByOne played one with same | ⟨call, pending⟩
    · rw [same]
    · rw [pending]
      exact List.prefix_append _ _

/-- A call adds its line and sends it before the next does. -/
theorem lines_in_order_apart :
    let lineOf := fun call => if call = 0 then "first" else "second"
    let turns : List Turn := [.append 0, .send 0, .append 1, .send 1, .receive 0, .receive 0]
    ∃ state, (start []).play? lineOf (run []).live.next.length turns = some state ∧
      (∀ lost, .lagged lost ∉ state.told) ∧ state.told = [.line "first", .line "second"] ∧
      Precedes turns 0 1 ∧ [0, 1] <+ state.begun ∧ [0, 1] <+ state.ended := by
  intro lineOf turns
  have precedes : Precedes turns 0 1 :=
    ⟨[.append 0, .send 0], [.send 1, .receive 0, .receive 0], rfl, by simp⟩
  have played : ∃ state, (start []).play? lineOf (run []).live.next.length turns = some state ∧
      state.told = [.line "first", .line "second"] := ⟨_, rfl, by decide +kernel⟩
  obtain ⟨state, played, told⟩ := played
  have steady : ∀ lost, .lagged lost ∉ state.told := by simp [told]
  obtain ⟨unread, _, _, _, _, _, ordered, _⟩ := lines_in_order played steady
  exact ⟨state, played, steady, told, precedes, ordered 0 1 precedes (by simp [turns])⟩

/-- Two calls at the same time: the line that is added to the text first is got last. And a line that
has a line end in it is two lines of the text but is got as one. -/
theorem told_out_of_order :
    (∃ state, (start []).play? (fun call => if call = 0 then "first" else "second") 0
        [.append 0, .append 1, .send 1, .send 0, .receive 0, .receive 0] = some state ∧
      state.log.text = "first\nsecond\n" ∧ state.told = [.line "second", .line "first"]) ∧
    ∃ state, (start []).play? (fun _ => "one\ntwo") 0
        [.append 0, .send 0, .receive 0, .receive 0] = some state ∧
      state.log.text = "one\ntwo\n" ∧ state.told = [.line "one\ntwo", .empty] :=
  ⟨⟨_, rfl, by decide +kernel, by decide +kernel⟩, _, rfl, by decide +kernel, by decide +kernel⟩

end Workbench.Log
