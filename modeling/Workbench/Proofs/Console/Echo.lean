import Workbench.Console.Echo
import Workbench.Proofs.Log.Account
/-!
# What a reader of the log tells

While work goes on, a reader tells the user of every line that is logged, by the line itself or in
the number of those that were lost. What is left when the work ends is told only if the broadcast
still has all of it.
-/
namespace Workbench.Console

open Broadcast (capacity Carries)

/-- Whether a notice tells of some lines: it is the one line, or it says how many they are. -/
def Notice.Covers : Notice → List String → Prop
  | .line text, lines => lines = [text]
  | .skipped lost, lines => lines.length = lost

/-- Some notices account for some lines if they tell of them one run after the other, so that none
is left out, told twice or told out of its order. -/
def Accounts (told : List Notice) (lines : List String) : Prop :=
  ∃ parts, List.Forall₂ Notice.Covers told parts ∧ parts.flatten = lines

/-- How many lines a notice tells of. -/
def Notice.count : Notice → Nat
  | .line _ => 1
  | .skipped lost => lost

/-- How many lines some notices tell of. -/
def count : List Notice → Nat
  | [] => 0
  | notice :: rest => notice.count + count rest

theorem Notice.Covers.length_eq {notice : Notice} {lines : List String}
    (covers : notice.Covers lines) : lines.length = notice.count := by
  cases notice with
  | line text =>
    have one : lines = [text] := covers
    rw [one]
    rfl
  | skipped lost => exact covers

namespace Accounts

variable {told : List Notice} {lines : List String}

theorem nil : Accounts [] [] := ⟨[], .nil, rfl⟩

theorem concat (accounts : Accounts told lines) {notice : Notice} {more : List String}
    (covers : notice.Covers more) : Accounts (told ++ [notice]) (lines ++ more) := by
  obtain ⟨parts, each, rfl⟩ := accounts
  refine ⟨parts ++ [more], List.rel_append each (.cons covers .nil), ?_⟩
  rw [List.flatten_append, List.flatten_singleton]

theorem append_lines (accounts : Accounts told lines) (more : List String) :
    Accounts (told ++ more.map .line) (lines ++ more) := by
  induction more using List.reverseRecOn with
  | nil => simpa using accounts
  | append_singleton more text ih =>
    rw [List.map_append, ← List.append_assoc, ← List.append_assoc]
    exact ih.concat rfl

/-- The notices tell how many lines they account for. -/
theorem length_eq (accounts : Accounts told lines) :
    lines.length = count told := by
  obtain ⟨parts, each, rfl⟩ := accounts
  induction each with
  | nil => rfl
  | cons covers _ ih =>
    rw [List.flatten_cons, List.length_append, covers.length_eq, ih]
    rfl

end Accounts

namespace Echo

variable {log : Log} {e : Echo} {sent : List String} {joined : Nat}

/-- The lines that are logged while work goes on. -/
def logged (events : List Event) : List String :=
  events.filterMap fun
    | .logged text => some text
    | .turn => none

/-- The log and its reader when the work ends and nothing more is read yet. -/
def reading (log : Log) (events : List Event) : Log × Echo :=
  events.foldl step (log, ofNow log.live)

/-- How many lines the reader has not got when the work ends. -/
def unread (log : Log) (events : List Event) : Nat :=
  (reading log events).1.live.sent - (reading log events).2.next

theorem watch_snd (log : Log) (events : List Event) : (watch log events).2 =
    (reading log events).2.drain (reading log events).1.live :=
  rfl

/-- A reader has told of the lines that were sent since it joined, up to the one that it gets
next. -/
structure Follows (log : Log) (e : Echo) (sent : List String) (joined : Nat) : Prop where
  carries : log.live.Carries sent
  since : joined ≤ e.next
  within : e.next ≤ sent.length
  accounts : Accounts e.told ((sent.take e.next).drop joined)

theorem follows_ofNow (carries : log.live.Carries sent) :
    Follows log (ofNow log.live) sent sent.length := by
  have now : (ofNow log.live).next = sent.length := carries.sent
  refine ⟨carries, ?_, ?_, ?_⟩
  · rw [now]
  · rw [now]
  · rw [now, List.take_length, List.drop_length]
    exact .nil

namespace Follows

variable (follows : Follows log e sent joined)
include follows

theorem line (text : String) : Follows (log.line text) e (sent ++ [text]) joined := by
  refine ⟨follows.carries.send text, follows.since, ?_, ?_⟩
  · rw [List.length_append]
    exact Nat.le_trans follows.within (Nat.le_add_right _ _)
  · rw [List.take_append_of_le_length follows.within]
    exact follows.accounts

/-- Whatever a reader gets, it tells of the lines that it passes over. -/
theorem tell {notice : Notice} {lines : List String} {next : Nat} (covers : notice.Covers lines)
    (cut : sent.drop e.next = lines ++ sent.drop next) (within : next ≤ sent.length) :
    Follows log ⟨next, e.told ++ [notice]⟩ sent joined := by
  have lengths := congrArg List.length cut
  simp only [List.length_append, List.length_drop] at lengths
  have := follows.within
  have since := follows.since
  have place : next = e.next + lines.length := by omega
  refine ⟨follows.carries, by dsimp only; omega, within, ?_⟩
  have taken : (sent.take next).drop joined = (sent.take e.next).drop joined ++ lines := by
    have front : (sent.drop e.next).take lines.length = lines := by
      rw [cut, List.take_left]
    have early : joined ≤ (sent.take e.next).length := by
      rw [List.length_take]
      omega
    rw [place, List.take_add, front, List.drop_append_of_le_length early]
  rw [taken]
  exact follows.accounts.concat covers

theorem poll : Follows log (e.poll log.live) sent joined := by
  obtain ⟨lines, covers, cut, within⟩ := follows.carries.receiveAt_covers e.next follows.within
  unfold Echo.poll
  split
  next text next got =>
    rw [got] at covers cut within
    exact follows.tell covers cut within
  next lost next got =>
    rw [got] at covers cut within
    exact follows.tell covers cut within
  next => exact follows

theorem step (event : Event) :
    Follows (Echo.step (log, e) event).1 (Echo.step (log, e) event).2 (sent ++ logged [event])
      joined := by
  cases event with
  | logged text => exact follows.line text
  | turn =>
    rw [logged, List.filterMap_cons_none rfl, List.filterMap_nil, List.append_nil]
    exact follows.poll

theorem foldl (events : List Event) :
    Follows (events.foldl Echo.step (log, e)).1 (events.foldl Echo.step (log, e)).2
      (sent ++ logged events) joined := by
  induction events generalizing log e sent with
  | nil => rwa [logged, List.filterMap_nil, List.append_nil]
  | cons event events ih =>
    have all : logged (event :: events) = logged [event] ++ logged events :=
      List.filterMap_append (l := [event])
    rw [List.foldl_cons, all, ← List.append_assoc]
    exact ih (follows.step event)

end Follows

/-- While the broadcast has all that is left, it is read to its end. -/
theorem drainWithin_of_near (carries : log.live.Carries sent) (within : e.next ≤ sent.length)
    (near : (sent.drop e.next).length ≤ capacity) (fuel : Nat)
    (enough : (sent.drop e.next).length ≤ fuel) :
    (drainWithin log.live fuel e).told = e.told ++ (sent.drop e.next).map .line := by
  induction fuel generalizing e with
  | zero =>
    have nothing : sent.drop e.next = [] := List.length_eq_zero_iff.mp (by omega)
    rw [nothing, drainWithin, List.map_nil, List.append_nil]
  | succ fuel ih =>
    rw [drainWithin, carries.receiveAt_of_near e.next within near]
    cases left : sent.drop e.next with
    | nil => exact (List.append_nil _).symm
    | cons text rest =>
      have later : sent.drop (e.next + 1) = rest := by
        rw [← List.drop_drop, left]
        rfl
      rw [left, List.length_cons] at near enough
      have lengths := congrArg List.length left
      rw [List.length_drop, List.length_cons] at lengths
      have read := @ih ⟨e.next + 1, e.told ++ [.line text]⟩ (by dsimp only; omega)
        (by rw [later]; omega) (by rw [later]; omega)
      rw [later] at read
      simpa using read

theorem drain_of_near (carries : log.live.Carries sent) (within : e.next ≤ sent.length)
    (near : (sent.drop e.next).length ≤ capacity) :
    (e.drain log.live).told = e.told ++ (sent.drop e.next).map .line := by
  apply drainWithin_of_near carries within near
  have := carries.length_kept
  rw [List.length_drop] at near ⊢
  omega

/-- What is left is not even looked at if lines were lost before. -/
theorem drain_of_behind (carries : log.live.Carries sent)
    (behind : capacity < (sent.drop e.next).length) : e.drain log.live = e := by
  have got := carries.receiveAt_of_behind e.next behind
  unfold drain
  cases log.live.kept.length with
  | zero => rfl
  | succ fuel => rw [drainWithin, got]

theorem follows_reading (history : List Log.Step) (events : List Event) :
    Follows (reading (Log.run history) events).1 (reading (Log.run history) events).2
      (Log.added history ++ logged events) (Log.added history).length :=
  (follows_ofNow (Log.carries_run history)).foldl events

/-- When the work ends, the reader has told of the lines before the unread ones. -/
theorem reading_accounts (history : List Log.Step) (events : List Event) :
    Accounts (reading (Log.run history) events).2.told
        ((logged events).take ((logged events).length - unread (Log.run history) events)) ∧
      (Log.added history ++ logged events).drop (reading (Log.run history) events).2.next =
        (logged events).drop ((logged events).length - unread (Log.run history) events) := by
  obtain ⟨carries, since, within, accounts⟩ := follows_reading history events
  have sent := carries.sent
  rw [List.length_append] at sent within
  have place : (logged events).length - unread (Log.run history) events =
      (reading (Log.run history) events).2.next - (Log.added history).length := by
    rw [unread]
    omega
  rw [place]
  constructor
  · rwa [List.take_append, List.take_of_length_le since, List.drop_left] at accounts
  · rw [List.drop_append, List.drop_eq_nil_of_le since, List.nil_append]

theorem unread_le (history : List Log.Step) (events : List Event) :
    unread (Log.run history) events ≤ (logged events).length := by
  obtain ⟨carries, since, -, -⟩ := follows_reading history events
  have sent := carries.sent
  rw [List.length_append] at sent
  rw [unread]
  omega

/-- What the user is told of the log while work goes on accounts for the lines that are logged
meanwhile exactly if no more of them are unread in the end than the broadcast keeps, however the
reader's turns lie between the lines. Otherwise it accounts for those before the unread ones, and
these are neither shown nor counted. -/
theorem watch_accounts_iff (history : List Log.Step) (events : List Event) :
    (Accounts (watch (Log.run history) events).2.told (logged events) ↔
      unread (Log.run history) events ≤ capacity) ∧
    (capacity < unread (Log.run history) events →
      Accounts (watch (Log.run history) events).2.told
        ((logged events).take ((logged events).length - unread (Log.run history) events))) := by
  have follows := follows_reading history events
  obtain ⟨accounts, left⟩ := reading_accounts history events
  have fits := unread_le history events
  have length : ((Log.added history ++ logged events).drop
      (reading (Log.run history) events).2.next).length = unread (Log.run history) events := by
    rw [left, List.length_drop]
    omega
  rw [watch_snd]
  by_cases near : unread (Log.run history) events ≤ capacity
  · have read := drain_of_near follows.carries follows.within (by rwa [length])
    have all := accounts.append_lines
      ((logged events).drop ((logged events).length - unread (Log.run history) events))
    rw [List.take_append_drop] at all
    rw [read, left]
    exact ⟨⟨fun _ => near, fun _ => all⟩, fun behind => absurd near (Nat.not_le_of_gt behind)⟩
  · have behind := Nat.lt_of_not_le near
    rw [drain_of_behind follows.carries (by rwa [length])]
    refine ⟨⟨fun whole => ?_, fun close => absurd close near⟩, fun _ => accounts⟩
    -- the same notices cannot account for fewer lines and for all of them
    have lengths := accounts.length_eq
    have every := whole.length_eq
    rw [List.length_take] at lengths
    omega

/-- To read on for a while is to have so many turns. -/
theorem foldl_turns (log : Log) (e : Echo) (turns : Nat) :
    (List.replicate turns .turn).foldl step (log, e) =
      (log, Nat.repeat (poll · log.live) turns e) := by
  induction turns with
  | zero => rfl
  | succ turns ih =>
    rw [List.replicate_succ', List.foldl_append, ih]
    rfl

/-- A turn brings the reader on by a line, or to the oldest line that is kept. -/
theorem next_poll (carries : log.live.Carries sent) (within : e.next ≤ sent.length) :
    (e.poll log.live).next =
      if capacity < sent.length - e.next then sent.length - capacity
      else min sent.length (e.next + 1) := by
  rw [← List.length_drop]
  by_cases behind : capacity < (sent.drop e.next).length
  · rw [poll, carries.receiveAt_of_behind e.next behind, if_pos behind]
  · rw [poll, carries.receiveAt_of_near e.next within (Nat.le_of_not_lt behind), if_neg behind]
    cases left : sent.drop e.next with
    | nil =>
      have := List.drop_eq_nil_iff.mp left
      dsimp only
      omega
    | cons text rest =>
      have lengths := congrArg List.length left
      rw [List.length_drop, List.length_cons] at lengths
      dsimp only
      omega

/-- A reader that reads on over the gaps accounts for all lines. -/
theorem Follows.catchUp (follows : Follows log e sent joined) :
    Accounts (e.catchUp log.live).told (sent.drop joined) := by
  have reads (turns : Nat) : Follows log (Nat.repeat (Echo.poll · log.live) turns e) sent joined := by
    induction turns with
    | zero => exact follows
    | succ turns ih => exact ih.poll
  have comes (turns : Nat) : min sent.length (sent.length - capacity + turns) ≤
      (Nat.repeat (Echo.poll · log.live) (turns + 1) e).next := by
    induction turns with
    | zero =>
      change _ ≤ (e.poll log.live).next
      have within := follows.within
      rw [next_poll follows.carries within]
      split <;> omega
    | succ turns ih =>
      change _ ≤ ((Nat.repeat (Echo.poll · log.live) (turns + 1) e).poll log.live).next
      have within := (reads (turns + 1)).within
      rw [next_poll follows.carries within]
      split <;> omega
  have kept := follows.carries.length_kept
  have reached := comes log.live.kept.length
  have read := reads (log.live.kept.length + 1)
  have within := read.within
  have all : (Nat.repeat (Echo.poll · log.live) (log.live.kept.length + 1) e).next = sent.length := by
    omega
  have accounts := read.accounts
  rwa [all, List.take_length] at accounts

/-- A burst of lines between two turns of the reader. -/
def burst (texts : List String) : List Event := texts.map .logged

theorem logged_burst (texts : List String) : logged (burst texts) = texts := by
  rw [logged, burst, List.filterMap_map]
  exact List.filterMap_some

theorem foldl_burst (log : Log) (e : Echo) (texts : List String) :
    (burst texts).foldl step (log, e) = (log.lines texts, e) := by
  induction texts generalizing log with
  | nil => rfl
  | cons text texts ih => exact ih (log.line text)

theorem reading_burst (log : Log) (texts : List String) :
    reading log (burst texts) = (log.lines texts, ofNow log.live) :=
  foldl_burst log _ texts

theorem unread_burst (history : List Log.Step) (texts : List String) :
    unread (Log.run history) (burst texts) = texts.length := by
  have sent := (follows_reading history (burst texts)).carries.sent
  have start := (Log.carries_run history).sent
  rw [logged_burst, List.length_append] at sent
  rw [unread, sent, reading_burst]
  rw [ofNow, start]
  dsimp only
  omega

/-- When more lines than are kept are logged at once before the work ends, the user is told
nothing of them. -/
theorem told_burst (history : List Log.Step) (texts : List String) (many : capacity < texts.length) :
    (watch (Log.run history) (burst texts)).2.told = [] := by
  have follows := follows_reading history (burst texts)
  obtain ⟨-, rest⟩ := reading_accounts history (burst texts)
  rw [unread_burst, logged_burst, Nat.sub_self, List.drop_zero] at rest
  rw [logged_burst] at follows
  rw [watch_snd, drain_of_behind follows.carries (by rwa [rest]), reading_burst]
  rfl

/-- One line too many is logged, and then no line is shown and none is counted. -/
theorem burst_unaccounted :
    (watch (Log.run []) (burst (List.replicate 1025 "line"))).2.told = [] ∧
      logged (burst (List.replicate 1025 "line")) = List.replicate 1025 "line" ∧
      ¬ Accounts (watch (Log.run []) (burst (List.replicate 1025 "line"))).2.told
        (logged (burst (List.replicate 1025 "line"))) := by
  have many : (List.replicate 1025 "line").length = 1025 := List.length_replicate
  have told := told_burst [] (List.replicate 1025 "line") (by rw [many]; decide)
  refine ⟨told, logged_burst _, fun accounts => ?_⟩
  have counted := accounts.length_eq
  rw [told, logged_burst, many, count] at counted
  omega

end Echo

end Workbench.Console
