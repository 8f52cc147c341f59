import Mathlib.Data.List.Forall2
import Workbench.Log.Basic

/-! What a broadcast keeps of the lines that were sent, and what its subscribers are told. Whatever
a subscriber is told covers a run of these lines, so that it accounts for all of them in order. -/
namespace Workbench

/-- Whether a subscriber that is told this is told of some lines: it gets the one line, it is told
how many they are, or there are none. -/
def Reception.Covers : Reception → List String → Prop
  | .line text, lines => lines = [text]
  | .lagged lost, lines => lines.length = lost
  | .empty, lines => lines = []

/-- The line that a subscriber gets. -/
def Reception.line? : Reception → Option String
  | .line text => some text
  | _ => none

/-- A subscriber that never lags has got the lines that it was told of. -/
theorem Reception.covers_of_steady (told : List Reception) (parts : List (List String))
    (covers : List.Forall₂ Covers told parts) (steady : ∀ lost, .lagged lost ∉ told) :
    told.filterMap line? = parts.flatten := by
  induction covers with
  | nil => rfl
  | @cons reception part told parts covers _ ih =>
    have later := ih fun lost member => steady lost (List.mem_cons_of_mem _ member)
    cases reception with
    | line text =>
      have one : part = [text] := covers
      simp [line?, later, one]
    | lagged lost => exact absurd List.mem_cons_self (steady lost)
    | empty =>
      have nothing : part = [] := covers
      rw [List.filterMap_cons_none rfl, later, nothing, List.flatten_cons, List.nil_append]

namespace Broadcast

/-- A broadcast on which certain lines were sent, oldest first. -/
structure Carries (b : Broadcast) (sent : List String) : Prop where
  kept : b.kept = sent.drop (sent.length - capacity)
  sent : b.sent = sent.length

variable {b : Broadcast} {sent : List String}

theorem send_next (b : Broadcast) (line : String) : (b.send line).next = b.next := by
  simp only [send]

theorem carries_new : Carries {} [] := ⟨rfl, rfl⟩

namespace Carries

variable (carries : b.Carries sent)
include carries

/-- A line that is sent takes the place of the oldest one that is kept. -/
theorem send (line : String) : (b.send line).Carries (sent ++ [line]) := by
  constructor
  · -- what is kept and the new line are the end of what was sent, one line too long at most
    have cut : (b.kept ++ [line]).length - capacity + (sent.length - capacity) =
        (sent ++ [line]).length - capacity := by
      rw [carries.kept, List.length_append, List.length_append, List.length_drop]
      simp only [List.length_singleton]
      omega
    have whole : b.kept ++ [line] = (sent ++ [line]).drop (sent.length - capacity) := by
      rw [carries.kept, List.drop_append_of_le_length (Nat.sub_le _ _)]
    rw [Broadcast.send]
    dsimp only
    rw [← cut]
    rw [whole] at cut ⊢
    rw [List.drop_drop, Nat.add_comm]
  · simp [Broadcast.send, carries.sent]

theorem subscribe : b.subscribe.2.Carries sent := ⟨carries.kept, carries.sent⟩

theorem receive (subscriber : Nat) : (b.receive subscriber).2.Carries sent := by
  unfold Broadcast.receive
  split
  · exact carries
  · exact ⟨carries.kept, carries.sent⟩

theorem length_kept : b.kept.length = min sent.length capacity := by
  rw [carries.kept, List.length_drop]
  omega

theorem oldest_eq : b.oldest = sent.length - capacity := by
  rw [oldest, carries.sent, carries.length_kept]
  omega

/-- The lines that are kept for a subscriber are the last of those that it has still to get. -/
theorem pending_eq (next : Nat) :
    b.pending next = (sent.drop next).drop ((sent.drop next).length - capacity) := by
  have start : sent.length - capacity + (next - (sent.length - capacity)) =
      next + (sent.length - next - capacity) := by
    omega
  rw [pending, carries.oldest_eq, carries.kept, List.drop_drop, List.drop_drop, List.length_drop,
    start]

/-- A subscriber that has more lines to get than are kept loses the oldest. -/
theorem receiveAt_of_behind (next : Nat) (behind : capacity < (sent.drop next).length) :
    b.receiveAt next =
      (.lagged ((sent.drop next).length - capacity), sent.length - capacity) := by
  rw [List.length_drop] at behind ⊢
  have lost : sent.length - capacity - next = sent.length - next - capacity := by omega
  rw [receiveAt, carries.oldest_eq, if_pos (by omega), lost]

/-- A subscriber that has no more lines to get than are kept gets the first of them. -/
theorem receiveAt_of_near (next : Nat) (within : next ≤ sent.length)
    (near : (sent.drop next).length ≤ capacity) :
    b.receiveAt next =
      match sent.drop next with
      | [] => (.empty, next)
      | text :: _ => (.line text, next + 1) := by
  rw [List.length_drop] at near
  have place : sent.length - capacity + (next - (sent.length - capacity)) = next := by omega
  have first : b.kept[next - b.oldest]? = (sent.drop next).head? := by
    rw [carries.oldest_eq, carries.kept, List.getElem?_drop, List.head?_drop, place]
  rw [receiveAt, first, carries.oldest_eq, if_neg (by omega)]
  cases sent.drop next <;> rfl

/-- A subscriber that is told nothing has got all lines. -/
theorem drop_of_empty (next : Nat) (within : next ≤ sent.length)
    (nothing : (b.receiveAt next).1 = .empty) : sent.drop next = [] := by
  by_cases behind : capacity < (sent.drop next).length
  · rw [carries.receiveAt_of_behind next behind] at nothing
    cases nothing
  · rw [carries.receiveAt_of_near next within (Nat.le_of_not_lt behind)] at nothing
    cases unread : sent.drop next with
    | nil => rfl
    | cons text rest =>
      rw [unread] at nothing
      cases nothing

/-- What a subscriber is told covers the lines up to the one that it gets next. -/
theorem receiveAt_covers (next : Nat) (within : next ≤ sent.length) :
    ∃ lines, (b.receiveAt next).1.Covers lines ∧
      sent.drop next = lines ++ sent.drop (b.receiveAt next).2 ∧
      (b.receiveAt next).2 ≤ sent.length := by
  by_cases behind : capacity < (sent.drop next).length
  · -- the lines up to the oldest that is kept are the lost ones
    rw [carries.receiveAt_of_behind next behind]
    rw [List.length_drop] at behind
    refine ⟨(sent.drop next).take (sent.length - capacity - next), ?_, ?_, Nat.sub_le _ _⟩
    · simp only [Reception.Covers, List.length_take, List.length_drop]
      omega
    · have place : next + (sent.length - capacity - next) = sent.length - capacity := by omega
      have skipped : sent.drop (sent.length - capacity) =
          (sent.drop next).drop (sent.length - capacity - next) := by
        rw [List.drop_drop, place]
      rw [skipped, List.take_append_drop]
  · rw [carries.receiveAt_of_near next within (Nat.le_of_not_lt behind)]
    cases unread : sent.drop next with
    | nil => exact ⟨[], rfl, by simp [unread], within⟩
    | cons text rest =>
      have later : sent.drop (next + 1) = rest := by
        rw [← List.drop_drop, unread]
        rfl
      refine ⟨[text], rfl, by rw [later]; rfl, ?_⟩
      have length := congrArg List.length unread
      rw [List.length_drop, List.length_cons] at length
      change next + 1 ≤ sent.length
      omega

end Carries

/-- What a subscriber was told covers the lines that were sent since it came, up to the one that it
gets next. -/
structure Follows (b : Broadcast) (sent : List String) (subscriber joined : Nat)
    (told : List Reception) (next : Nat) : Prop where
  waits : b.next[subscriber]? = some next
  within : next ≤ sent.length
  covers : ∃ parts, List.Forall₂ Reception.Covers told parts ∧
    sent.drop joined = parts.flatten ++ sent.drop next

/-- A subscriber that comes, and that was told of no line before. -/
theorem follows_subscribe (carries : b.Carries sent) (told : List Reception)
    (silent : ∀ reception ∈ told, reception = .empty) :
    b.subscribe.2.Follows sent b.next.length sent.length told sent.length := by
  refine ⟨by simp [subscribe, carries.sent], Nat.le_refl _, told.map fun _ => [], ?_, ?_⟩
  · -- whatever it asked for before, it was told of no line
    rw [List.forall₂_map_right_iff, List.forall₂_same]
    intro reception member
    rw [silent reception member]
    rfl
  · simp

namespace Follows

variable {subscriber joined next : Nat} {told : List Reception}
  (follows : b.Follows sent subscriber joined told next)
include follows

theorem subscriber_lt : subscriber < b.next.length :=
  (List.getElem?_eq_some_iff.mp follows.waits).1

theorem send (line : String) (early : joined ≤ sent.length) :
    (b.send line).Follows (sent ++ [line]) subscriber joined told next := by
  obtain ⟨parts, covers, whole⟩ := follows.covers
  refine ⟨?_, ?_, parts, covers, ?_⟩
  · rw [send_next, follows.waits]
  · rw [List.length_append]
    exact Nat.le_trans follows.within (Nat.le_add_right _ _)
  · rw [List.drop_append_of_le_length early, List.drop_append_of_le_length follows.within, whole,
      List.append_assoc]

theorem subscribe : b.subscribe.2.Follows sent subscriber joined told next := by
  refine ⟨?_, follows.within, follows.covers⟩
  rw [Broadcast.subscribe]
  dsimp only
  rw [List.getElem?_append_left follows.subscriber_lt, follows.waits]

theorem receive_eq : b.receive subscriber =
    ((b.receiveAt next).1, { b with next := b.next.set subscriber (b.receiveAt next).2 }) := by
  rw [Broadcast.receive, follows.waits]

/-- What another subscriber is told does not change what this one gets. -/
theorem receive_other (other : Nat) (apart : other ≠ subscriber) :
    (b.receive other).2.Follows sent subscriber joined told next := by
  refine ⟨?_, follows.within, follows.covers⟩
  unfold Broadcast.receive
  split
  · exact follows.waits
  · dsimp only
    rw [List.getElem?_set_ne apart, follows.waits]

theorem receive_self (carries : b.Carries sent) :
    (b.receive subscriber).2.Follows sent subscriber joined
      (told ++ [(b.receive subscriber).1]) (b.receiveAt next).2 := by
  obtain ⟨parts, covers, whole⟩ := follows.covers
  obtain ⟨lines, covered, cut, within⟩ := carries.receiveAt_covers next follows.within
  rw [follows.receive_eq]
  refine ⟨?_, within, parts ++ [lines], ?_, ?_⟩
  · exact List.getElem?_set_self follows.subscriber_lt
  · exact List.rel_append covers (.cons covered .nil)
  · rw [List.flatten_append, List.flatten_singleton, List.append_assoc, ← cut, whole]

end Follows

end Broadcast

end Workbench
