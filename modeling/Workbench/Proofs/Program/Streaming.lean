import Mathlib.Logic.Function.Basic
import Workbench.Host.Basic
import Workbench.Log.Basic
import Workbench.Proofs.Log.Account
import Workbench.Proofs.Program.Lines

/-! What a program writes comes into the log. Each of its streams is read by a task of its own, and
another takes their lines from a queue. However these tasks take turns, the log gets the lines of both
streams before the program is reported to have ended. -/
namespace Workbench

open LineReader (linesOf)

/-- A list into which two others are merged, each in its own order. -/
inductive Interleaving {α : Type} : List α → List α → List α → Prop
  | nil : Interleaving [] [] []
  | left {xs ys zs : List α} (x : α) : Interleaving xs ys zs → Interleaving (x :: xs) ys (x :: zs)
  | right {xs ys zs : List α} (y : α) : Interleaving xs ys zs → Interleaving xs (y :: ys) (y :: zs)

namespace Interleaving

variable {α : Type} {xs ys zs : List α} (mixed : Interleaving xs ys zs)

theorem of_left (xs : List α) : Interleaving xs [] xs := by
  induction xs with
  | nil => exact .nil
  | cons x _ ih => exact .left x ih

theorem of_right (ys : List α) : Interleaving [] ys ys := by
  induction ys with
  | nil => exact .nil
  | cons y _ ih => exact .right y ih

include mixed

theorem append_left (more : List α) : Interleaving (xs ++ more) ys (zs ++ more) := by
  induction mixed with
  | nil => exact of_left more
  | left x _ ih => exact .left x ih
  | right y _ ih => exact .right y ih

theorem append_right (more : List α) : Interleaving xs (ys ++ more) (zs ++ more) := by
  induction mixed with
  | nil => exact of_right more
  | left x _ ih => exact .left x ih
  | right y _ ih => exact .right y ih

end Interleaving

namespace Relay

variable (r : Relay) (s : Stream)

theorem reader_setReader_self (reader : Option LineReader) :
    (r.setReader s reader).reader s = reader := by
  cases s <;> rfl

theorem reader_setReader_other (reader : Option LineReader) {other : Stream} (apart : other ≠ s) :
    (r.setReader s reader).reader other = r.reader other := by
  cases s <;> cases other <;> first | rfl | exact absurd rfl apart

theorem reader_with_queue (queue : List String) :
    ({ r with queue } : Relay).reader s = r.reader s := by
  cases s <;> rfl

variable {r s}

theorem isFinished_iff : r.isFinished ↔ (∀ s, r.reader s = none) ∧ r.queue = [] := by
  simp only [isFinished, Bool.and_eq_true, Option.isNone_iff_eq_none, decide_eq_true_eq]
  refine and_congr_left fun _ => ⟨?_, fun closed => ⟨closed .output, closed .error⟩⟩
  rintro ⟨output, error⟩ s
  cases s
  · exact output
  · exact error

theorem feed_of_closed (closed : r.reader s = none) (piece : List UInt8) : r.feed s piece = r := by
  rw [feed, closed]

theorem close_of_closed (closed : r.reader s = none) : r.close s = r := by
  rw [close, closed]

theorem feed_of_open {reader : LineReader} (opened : r.reader s = some reader)
    (piece : List UInt8) :
    (r.feed s piece).reader s = some (reader.feed piece).2 ∧
      (∀ other ≠ s, (r.feed s piece).reader other = r.reader other) ∧
      (r.feed s piece).queue = r.queue ++ (reader.feed piece).1 := by
  rw [feed, opened]
  refine ⟨?_, fun other apart => ?_, rfl⟩
  · exact (reader_with_queue _ s _).trans (r.reader_setReader_self s _)
  · exact (reader_with_queue _ other _).trans (r.reader_setReader_other s _ apart)

theorem close_of_open {reader : LineReader} (opened : r.reader s = some reader) :
    (r.close s).reader s = none ∧
      (∀ other ≠ s, (r.close s).reader other = r.reader other) ∧
      (r.close s).queue = r.queue ++ reader.finish := by
  rw [close, opened]
  refine ⟨?_, fun other apart => ?_, rfl⟩
  · exact (reader_with_queue _ s _).trans (r.reader_setReader_self s _)
  · exact (reader_with_queue _ other _).trans (r.reader_setReader_other s _ apart)

theorem take?_eq_some_iff {line : String} {r' : Relay} :
    r.take? = some (line, r') ↔ ∃ rest, r.queue = line :: rest ∧ r' = { r with queue := rest } := by
  rw [take?]
  split
  next empty => simp [empty]
  next first rest queue =>
    rw [Option.some.injEq, Prod.mk.injEq]
    constructor
    · rintro ⟨rfl, rfl⟩
      exact ⟨rest, queue, rfl⟩
    · rintro ⟨rest', queue', rfl⟩
      rw [queue, List.cons.injEq] at queue'
      exact ⟨queue'.1, by rw [queue'.2]⟩

end Relay

/-- A program whose output goes to a log: what of its streams was not read yet, the log, the lines that
were added to it for the program and by others meanwhile, and the code that was reported. -/
structure Streaming where
  relay : Relay := {}
  unread : Stream → List UInt8
  log : Log
  added : List String := []
  others : List String := []
  code : Option Int := none

namespace Streaming

/-- A task goes on. A stream is read in pieces of any size, so also line by line, and is closed at its
end. -/
inductive Turn where
  | read (stream : Stream) (size : Nat)
  | close (stream : Stream)
  | take
  | other (line : String)
  | finish (code : Int)

def start (written : Stream → List UInt8) (log : Log) : Streaming := { unread := written, log }

def turn? (state : Streaming) : Turn → Option Streaming
  | .read stream size => some { state with
      relay := state.relay.feed stream ((state.unread stream).take size)
      unread := Function.update state.unread stream ((state.unread stream).drop size) }
  | .close stream =>
    if state.unread stream = [] then some { state with relay := state.relay.close stream } else none
  | .take => state.relay.take?.map fun (line, relay) =>
    { state with relay, log := state.log.line line, added := state.added ++ [line] }
  | .other line =>
    some { state with log := state.log.line line, others := state.others ++ [line] }
  | .finish code =>
    if state.relay.isFinished ∧ state.code = none then some { state with code := some code } else none

def play? (state : Streaming) (turns : List Turn) : Option Streaming := turns.foldlM turn? state

/-- The lines of a stream that are still to come. -/
def coming (state : Streaming) (stream : Stream) : List String :=
  match state.relay.reader stream with
  | none => []
  | some reader => reader.readAll [state.unread stream]

/-- What holds in every state. The lines of each stream are those that were read, which are in the log
or in the queue, and those that are still to come. -/
structure Sound (written : Stream → List UInt8) (log : Log) (state : Streaming) : Prop where
  lines : ∃ sent : Stream → List String,
    Interleaving (sent .output) (sent .error) (state.added ++ state.relay.queue) ∧
    ∀ stream, linesOf (written stream) = sent stream ++ state.coming stream
  log : ∃ all, Interleaving state.added state.others all ∧ state.log = log.lines all
  code : state.code ≠ none → state.relay.isFinished

variable {written : Stream → List UInt8} {log : Log} {state state' : Streaming}

theorem turn?_close_iff (stream : Stream) :
    state.turn? (.close stream) = some state' ↔
      state.unread stream = [] ∧ state' = { state with relay := state.relay.close stream } := by
  rw [turn?, Option.ite_none_right_eq_some, Option.some.injEq, @eq_comm _ _ state']

theorem turn?_take_iff :
    state.turn? .take = some state' ↔ ∃ line rest, state.relay.queue = line :: rest ∧
      state' = { state with
        relay := { state.relay with queue := rest }
        log := state.log.line line
        added := state.added ++ [line] } := by
  rw [turn?, Option.map_eq_some_iff]
  constructor
  · rintro ⟨⟨line, relay⟩, taken, rfl⟩
    obtain ⟨rest, queue, rfl⟩ := Relay.take?_eq_some_iff.mp taken
    exact ⟨line, rest, queue, rfl⟩
  · rintro ⟨line, rest, queue, rfl⟩
    exact ⟨(line, _), Relay.take?_eq_some_iff.mpr ⟨rest, queue, rfl⟩, rfl⟩

theorem turn?_finish_iff (code : Int) :
    state.turn? (.finish code) = some state' ↔
      (state.relay.isFinished ∧ state.code = none) ∧ state' = { state with code := some code } := by
  rw [turn?, Option.ite_none_right_eq_some, Option.some.injEq, @eq_comm _ _ state']

theorem sound_start : (start written log).Sound written log := by
  refine ⟨⟨fun _ => [], .nil, fun stream => ?_⟩, ⟨[], .nil, rfl⟩,
    fun returned => absurd rfl returned⟩
  -- a stream of which nothing was read has all its lines to come
  have whole := LineReader.readAll_eq_linesOf [written stream]
  rw [List.flatten_singleton] at whole
  rw [← whole]
  cases stream <;> rfl

/-- When nothing is left to be taken and both streams are closed, nothing is added any more but what
others add. -/
structure Rests (state state' : Streaming) : Prop where
  relay : state'.relay = state.relay
  added : state'.added = state.added
  others : ∃ more, state'.others = state.others ++ more ∧ state'.log = state.log.lines more

theorem Rests.refl (state : Streaming) : Rests state state :=
  ⟨rfl, rfl, [], (List.append_nil _).symm, rfl⟩

theorem Rests.trans {state'' : Streaming} (first : Rests state state')
    (second : Rests state' state'') : Rests state state'' := by
  obtain ⟨lines, others, log⟩ := first.others
  obtain ⟨more, others', log'⟩ := second.others
  refine ⟨second.relay.trans first.relay, second.added.trans first.added, lines ++ more, ?_, ?_⟩
  · rw [others', others, List.append_assoc]
  · rw [log', log, Log.lines_append]

theorem rests_of_turn (finished : state.relay.isFinished) (turn : Turn)
    (turned : state.turn? turn = some state') : Rests state state' := by
  obtain ⟨closed, empty⟩ := Relay.isFinished_iff.mp finished
  have alone : ∃ more, state.others = state.others ++ more ∧ state.log = state.log.lines more :=
    (Rests.refl state).others
  cases turn with
  | read stream size =>
    cases turned
    exact ⟨Relay.feed_of_closed (closed stream) _, rfl, alone⟩
  | close stream =>
    obtain ⟨_, rfl⟩ := (turn?_close_iff stream).mp turned
    exact ⟨Relay.close_of_closed (closed stream), rfl, alone⟩
  | take =>
    -- there is nothing to take
    obtain ⟨line, rest, queue, _⟩ := turn?_take_iff.mp turned
    rw [empty] at queue
    cases queue
  | other line =>
    cases turned
    exact ⟨rfl, rfl, [line], rfl, rfl⟩
  | finish code =>
    obtain ⟨_, rfl⟩ := (turn?_finish_iff code).mp turned
    exact ⟨rfl, rfl, alone⟩

theorem rests_of_play (finished : state.relay.isFinished) (turns : List Turn)
    (played : state.play? turns = some state') : Rests state state' := by
  induction turns generalizing state with
  | nil =>
    cases played
    exact .refl _
  | cons turn rest ih =>
    obtain ⟨next, turned, played⟩ := Option.bind_eq_some_iff.mp played
    have rests := rests_of_turn finished turn turned
    exact rests.trans (ih (by rw [rests.relay]; exact finished) played)

namespace Sound

variable (sound : state.Sound written log)
include sound

/-- Lines of a stream come into the queue. -/
theorem lines_of_moved (stream : Stream) (more : List String) (added : state'.added = state.added)
    (queue : state'.relay.queue = state.relay.queue ++ more)
    (own : state.coming stream = more ++ state'.coming stream)
    (apart : ∀ other ≠ stream, state'.coming other = state.coming other) :
    ∃ sent : Stream → List String,
      Interleaving (sent .output) (sent .error) (state'.added ++ state'.relay.queue) ∧
      ∀ stream, linesOf (written stream) = sent stream ++ state'.coming stream := by
  obtain ⟨sent, mixed, whole⟩ := sound.lines
  refine ⟨Function.update sent stream (sent stream ++ more), ?_, fun other => ?_⟩
  · rw [added, queue, ← List.append_assoc]
    cases stream
    · exact mixed.append_left more
    · exact mixed.append_right more
  · by_cases same : other = stream
    · subst same
      rw [Function.update_self, whole, own, List.append_assoc]
    · rw [Function.update_of_ne same, whole, apart other same]

theorem lines_turn (turn : Turn) (turned : state.turn? turn = some state') :
    ∃ sent : Stream → List String,
      Interleaving (sent .output) (sent .error) (state'.added ++ state'.relay.queue) ∧
      ∀ stream, linesOf (written stream) = sent stream ++ state'.coming stream := by
  cases turn with
  | read stream size =>
    cases turned
    cases reader : state.relay.reader stream with
    | none =>
      -- nothing is read of a stream that was closed
      have same := Relay.feed_of_closed reader ((state.unread stream).take size)
      refine sound.lines_of_moved stream [] rfl (by simp [same]) ?_ fun other apart => ?_
      · simp [coming, same, reader]
      · simp [coming, same, apart]
    | some open_reader =>
      obtain ⟨own, others, queue⟩ := Relay.feed_of_open reader ((state.unread stream).take size)
      refine sound.lines_of_moved stream _ rfl queue ?_ fun other apart => ?_
      · -- what was read of the stream and what is left make up what was left before
        have cut := open_reader.readAll_append ((state.unread stream).take size)
          ((state.unread stream).drop size)
        rw [List.take_append_drop] at cut
        simp only [coming, reader, own, Function.update_self, cut]
      · simp only [coming, others other apart, Function.update_of_ne apart]
  | close stream =>
    obtain ⟨ended, rfl⟩ := (turn?_close_iff stream).mp turned
    cases reader : state.relay.reader stream with
    | none =>
      have same := Relay.close_of_closed reader
      refine sound.lines_of_moved stream [] rfl (by simp [same]) ?_ fun other _ => ?_
      · simp [coming, same]
      · simp [coming, same]
    | some open_reader =>
      obtain ⟨own, others, queue⟩ := Relay.close_of_open reader
      refine sound.lines_of_moved stream _ rfl queue ?_ fun other apart => ?_
      · -- a line without an end is handed on when the stream ends
        simp only [coming, reader, own, ended, List.append_nil]
        rfl
      · simp only [coming, others other apart]
  | take =>
    obtain ⟨line, rest, queue, rfl⟩ := turn?_take_iff.mp turned
    obtain ⟨sent, mixed, whole⟩ := sound.lines
    -- the line goes from the front of the queue to the end of the log
    refine ⟨sent, ?_, fun stream => ?_⟩
    · rw [queue] at mixed
      rwa [List.append_assoc]
    · rw [whole]
      simp only [coming, Relay.reader_with_queue]
  | other line =>
    cases turned
    exact sound.lines
  | finish code =>
    obtain ⟨_, rfl⟩ := (turn?_finish_iff code).mp turned
    exact sound.lines

theorem log_turn (turn : Turn) (turned : state.turn? turn = some state') :
    ∃ all, Interleaving state'.added state'.others all ∧ state'.log = log.lines all := by
  obtain ⟨all, mixed, lines⟩ := sound.log
  cases turn with
  | take =>
    obtain ⟨line, rest, _, rfl⟩ := turn?_take_iff.mp turned
    refine ⟨all ++ [line], mixed.append_left [line], ?_⟩
    rw [Log.lines_append, ← lines]
    rfl
  | other line =>
    cases turned
    refine ⟨all ++ [line], mixed.append_right [line], ?_⟩
    rw [Log.lines_append, ← lines]
    rfl
  | read stream size =>
    cases turned
    exact sound.log
  | close stream =>
    obtain ⟨_, rfl⟩ := (turn?_close_iff stream).mp turned
    exact sound.log
  | finish code =>
    obtain ⟨_, rfl⟩ := (turn?_finish_iff code).mp turned
    exact sound.log

theorem code_turn (turn : Turn) (turned : state.turn? turn = some state')
    (returned : state'.code ≠ none) : state'.relay.isFinished := by
  -- a code is reported only by a finished relay, and this does not change any more
  have finished : state.relay.isFinished := by
    cases turn with
    | finish code => exact ((turn?_finish_iff code).mp turned).1.1
    | take =>
      obtain ⟨_, _, _, rfl⟩ := turn?_take_iff.mp turned
      exact sound.code returned
    | close stream =>
      obtain ⟨_, rfl⟩ := (turn?_close_iff stream).mp turned
      exact sound.code returned
    | read stream size =>
      cases turned
      exact sound.code returned
    | other line =>
      cases turned
      exact sound.code returned
  rw [(rests_of_turn finished turn turned).relay]
  exact finished

theorem play (turns : List Turn) (played : state.play? turns = some state') :
    state'.Sound written log := by
  induction turns generalizing state with
  | nil =>
    cases played
    exact sound
  | cons turn rest ih =>
    obtain ⟨next, turned, played⟩ := Option.bind_eq_some_iff.mp played
    exact ih ⟨sound.lines_turn turn turned, sound.log_turn turn turned, sound.code_turn turn turned⟩
      played

end Sound

/-- Whenever a program is reported to have ended, the log has got the lines of both its streams, each
of them once and in its order, and besides them only what others have added. After that it gets only
what others add. -/
theorem lines_merged (turns : List Turn) (played : (start written log).play? turns = some state)
    (returned : state.code ≠ none) :
    Interleaving (linesOf (written .output)) (linesOf (written .error)) state.added ∧
      (∃ all, Interleaving state.added state.others all ∧ state.log = log.lines all ∧
        log.Gains state.log all) ∧
      ∀ later state', state.play? later = some state' → state'.added = state.added ∧
        ∃ more, state'.others = state.others ++ more ∧ state.log.Gains state'.log more := by
  have sound := sound_start.play turns played
  have finished := sound.code returned
  obtain ⟨closed, empty⟩ := Relay.isFinished_iff.mp finished
  refine ⟨?_, ?_, fun later state' played' => ?_⟩
  · obtain ⟨sent, mixed, whole⟩ := sound.lines
    -- nothing is to come from a closed stream
    have all_sent : ∀ stream, linesOf (written stream) = sent stream := by
      intro stream
      rw [whole, coming, closed stream, List.append_nil]
    rwa [all_sent, all_sent, ← List.append_nil state.added, ← empty]
  · obtain ⟨all, mixed, lines⟩ := sound.log
    refine ⟨all, mixed, lines, ?_⟩
    rw [lines]
    exact log.gains_lines all
  · have rests := rests_of_play finished later played'
    obtain ⟨more, others, lines⟩ := rests.others
    refine ⟨rests.added, more, others, ?_⟩
    rw [lines]
    exact state.log.gains_lines more

/-- Two lines of the output and one of the errors, which arrives between them, while another line is
added to a log that has a subscriber. -/
theorem lines_merged_between :
    let written : Stream → List UInt8 := fun
      | .output => [97, 10, 98]
      | .error => [120, 10]
    let log := ({} : Log).subscribe.2
    let turns : List Turn := [.read .output 3, .read .error 2, .take, .close .output, .other "c",
      .take, .close .error, .take, .finish 3]
    ∃ state, (start written log).play? turns = some state ∧ state.code ≠ none ∧
      state.added = ["a", "x", "b"] ∧ state.log.text = "a\nc\nx\nb\n" ∧
      state.log.live.pending 0 = ["a", "c", "x", "b"] ∧
      Interleaving (linesOf (written .output)) (linesOf (written .error)) state.added := by
  intro written log turns
  have texts : [LineReader.lineText [97], LineReader.lineText [120], LineReader.lineText [98]] =
      ["a", "x", "b"] := by
    simp [LineReader.lineText, Text.decodeLossy, Text.dropLastWhile]
  simp only [List.cons.injEq, and_true] at texts
  obtain ⟨a, x, b⟩ := texts
  have played : ∃ state, (start written log).play? turns = some state ∧ state.code ≠ none ∧
      state.added = [LineReader.lineText [97], LineReader.lineText [120],
        LineReader.lineText [98]] ∧
      state.log = log.lines [LineReader.lineText [97], "c", LineReader.lineText [120],
        LineReader.lineText [98]] := ⟨_, rfl, by simp, rfl, rfl⟩
  obtain ⟨state, played, returned, added, lines⟩ := played
  rw [a, x, b] at added lines
  refine ⟨state, played, returned, added, ?_, ?_, (lines_merged turns played returned).1⟩
  · rw [lines]
    rfl
  · rw [lines]
    decide

theorem play?_append {middle : Streaming} (front back : List Turn)
    (first : state.play? front = some middle) (second : middle.play? back = some state') :
    state.play? (front ++ back) = some state' := by
  rw [play?, List.foldlM_append]
  exact Option.bind_eq_some_iff.mpr ⟨middle, first, second⟩

/-- All lines in the queue are taken, one after the other. -/
theorem play?_take (state : Streaming) :
    state.play? (state.relay.queue.map fun _ => .take) = some { state with
      relay := { state.relay with queue := [] }
      log := state.log.lines state.relay.queue
      added := state.added ++ state.relay.queue } := by
  generalize queued : state.relay.queue = queue
  induction queue generalizing state with
  | nil =>
    obtain ⟨⟨output, error, queue⟩, unread, log, added, others, code⟩ := state
    cases queued
    simp [play?, Log.lines]
  | cons line rest ih =>
    have taken := turn?_take_iff.mpr ⟨line, rest, queued, rfl⟩
    refine Option.bind_eq_some_iff.mpr ⟨_, taken, (ih _ rfl).trans ?_⟩
    simp [Log.lines]

end Streaming

namespace Child

def streamOf (isError : Bool) : Stream := if isError then .error else .output

/-- The bytes that are written to a stream, in the order in which they are. -/
def bytesOn (written : List (Bool × List UInt8)) (stream : Stream) : List UInt8 :=
  (written.filter fun w => streamOf w.1 = stream).flatMap Prod.snd

/-- What was written is read piece by piece. -/
theorem play?_read (written : List (Bool × List UInt8)) (relay : Relay) (log : Log) :
    Streaming.play? { relay, unread := bytesOn written, log }
        (written.map fun w => .read (streamOf w.1) w.2.length) =
      some { relay := written.foldl (fun r w => r.feed (streamOf w.1) w.2) relay
             unread := fun _ => [], log } := by
  induction written generalizing relay with
  | nil => rfl
  | cons w rest ih =>
    have own : bytesOn (w :: rest) (streamOf w.1) = w.2 ++ bytesOn rest (streamOf w.1) := by
      simp [bytesOn]
    have left : Function.update (bytesOn (w :: rest)) (streamOf w.1)
        ((bytesOn (w :: rest) (streamOf w.1)).drop w.2.length) = bytesOn rest := by
      funext stream
      -- the other stream is left as it is
      by_cases same : stream = streamOf w.1
      · subst same
        rw [Function.update_self, own, List.drop_left]
      · rw [Function.update_of_ne same]
        simp [bytesOn, Ne.symm same]
    have turned : Streaming.turn? { relay, unread := bytesOn (w :: rest), log }
        (.read (streamOf w.1) w.2.length) =
          some { relay := relay.feed (streamOf w.1) w.2, unread := bytesOn rest, log } := by
      rw [Streaming.turn?]
      dsimp only
      rw [left, own, List.take_left]
    rw [Streaming.play?, List.map_cons, List.foldlM_cons, turned]
    exact ih _

/-- What the host collects of a program is what the tasks bring into a log when they take turns in a
certain way: all that was written is read, a program that has ended has its streams closed, and the
lines are taken. -/
theorem read_played (c : Child) (log : Log) :
    ∃ turns state,
      Streaming.play? { relay := c.relay, unread := bytesOn c.script.written, log } turns =
        some state ∧
      state.relay = { c.read.relay with queue := [] } ∧
      state.log = log.lines c.read.relay.queue := by
  have pieces := play?_read c.script.written c.relay log
  have collected : ∃ turns state,
      Streaming.play? { relay := c.relay, unread := bytesOn c.script.written, log } turns =
        some state ∧ state.relay = c.read.relay ∧ state.log = log := by
    -- the streams of a program are closed once it has ended
    by_cases alive : c.isAlive = true
    · refine ⟨_, _, pieces, ?_, rfl⟩
      rw [read, if_pos alive]
      rfl
    · refine ⟨_, _, Streaming.play?_append _ [.close .output, .close .error] pieces rfl, ?_, rfl⟩
      rw [read, if_neg alive]
      rfl
  obtain ⟨turns, state, played, relay, same⟩ := collected
  refine ⟨_, _, Streaming.play?_append _ _ played (Streaming.play?_take state), ?_, ?_⟩
  · rw [relay]
  · rw [relay, same]

end Child

end Workbench
