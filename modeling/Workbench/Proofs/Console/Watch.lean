import Mathlib.Data.List.Infix
import Mathlib.Data.List.Perm.Basic
import Workbench.Proofs.Console.Echo

/-! What is shown of the log while a server is watched. Three readers follow one another, and none of
them is told of a line that was logged before it came. So the user is shown the lines of the times in
which somebody reads, apart from those that the second reader has still to get when the user
interrupts: unlike the other two, it does not read them before it goes. -/
namespace Workbench.Console

open Broadcast (capacity Carries)

namespace Echo

variable {log : Log} {e : Echo} {sent got left : List String}

/-- What a reader that never lags has got, and what it has still to get. -/
def account : List String × List String → Event → List String × List String
  | (got, left), .logged text => (got, left ++ [text])
  | (got, []), .turn => (got, [])
  | (got, text :: left), .turn => (got ++ [text], left)

/-- The lines that a reader that never lags gets in its turns. -/
def taken (events : List Event) : List String := (events.foldl account ([], [])).1

/-- The lines that a reader that never lags has still to get after its turns. -/
def leftOver (events : List Event) : List String := (events.foldl account ([], [])).2

theorem logged_cons (event : Event) (events : List Event) :
    logged (event :: events) = logged [event] ++ logged events :=
  List.filterMap_append (l := [event])

theorem account_append (books : List String × List String) (event : Event) :
    (account books event).1 ++ (account books event).2 = books.1 ++ books.2 ++ logged [event] := by
  obtain ⟨got, left⟩ := books
  cases event with
  | logged text => exact (List.append_assoc got left [text]).symm
  | turn => cases left <;> simp [account, logged]

theorem foldl_account (events : List Event) (books : List String × List String) :
    (events.foldl account books).1 ++ (events.foldl account books).2 =
      books.1 ++ books.2 ++ logged events := by
  induction events generalizing books with
  | nil => exact (List.append_nil _).symm
  | cons event events ih =>
    rw [List.foldl_cons, ih, account_append, logged_cons event events, List.append_assoc]

/-- A line that is logged is got or left over. -/
theorem taken_append_leftOver (events : List Event) :
    taken events ++ leftOver events = logged events :=
  foldl_account events ([], [])

/-- A reader that has never lagged has told of every line that it got. -/
structure Reads (log : Log) (e : Echo) (sent got left : List String) : Prop where
  carries : log.live.Carries sent
  within : e.next ≤ sent.length
  waits : sent.drop e.next = left
  told : e.told = got.map .line

theorem reads_ofNow (carries : log.live.Carries sent) : Reads log (ofNow log.live) sent [] [] := by
  have now : (ofNow log.live).next = sent.length := carries.sent
  exact ⟨carries, Nat.le_of_eq now, by rw [now, List.drop_length], rfl⟩

namespace Reads

variable (reads : Reads log e sent got left)
include reads

theorem unread_eq : log.live.sent - e.next = left.length := by
  rw [← reads.waits, List.length_drop, reads.carries.sent]

theorem line (text : String) : Reads (log.line text) e (sent ++ [text]) got (left ++ [text]) := by
  refine ⟨reads.carries.send text, ?_, ?_, reads.told⟩
  · rw [List.length_append]
    exact Nat.le_trans reads.within (Nat.le_add_right _ _)
  · rw [List.drop_append_of_le_length reads.within, reads.waits]

variable (near : left.length ≤ capacity)
include near

theorem receiveAt_eq : log.live.receiveAt e.next =
    left.head?.elim (.empty, e.next) fun text => (.line text, e.next + 1) := by
  have waits := reads.waits
  rw [reads.carries.receiveAt_of_near e.next reads.within (by rwa [waits]), waits]
  cases left <;> rfl

/-- A reader that does not lag need not say so. -/
theorem pollQuietly_eq : e.pollQuietly log.live = e.poll log.live := by
  rw [Echo.pollQuietly, Echo.poll, reads.receiveAt_eq near]
  cases left <;> rfl

theorem poll : Reads log (e.poll log.live) sent (account (got, left) .turn).1
    (account (got, left) .turn).2 := by
  rw [Echo.poll, reads.receiveAt_eq near]
  cases left with
  | nil => exact reads
  | cons text rest =>
    have later : sent.drop (e.next + 1) = rest := by
      rw [← List.drop_drop, reads.waits]
      rfl
    have lengths := congrArg List.length reads.waits
    rw [List.length_drop, List.length_cons] at lengths
    refine ⟨reads.carries, ?_, later, ?_⟩
    · change e.next + 1 ≤ sent.length
      omega
    · change e.told ++ [.line text] = (got ++ [text]).map .line
      rw [reads.told, List.map_append]
      rfl

theorem drain_told : (e.drain log.live).told = (got ++ left).map .line := by
  have waits := reads.waits
  rw [drain_of_near reads.carries reads.within (by rwa [waits]), reads.told, waits,
    List.map_append]

end Reads

end Echo

namespace Watch

open Echo (logged taken leftOver account Reads)

variable {log : Log} {e : Echo} {sent got left : List String} {told : List Notice}

/-- The reader, in those parts of the watching in which there is one. -/
def reader? : Watch → Option Echo
  | .starting e | .serving e | .stopping e => some e
  | .started | .interrupted | .ended => none

/-- How many lines the reader has still to get. -/
def State.behind (s : State) : Nat := s.watch.reader?.elim 0 fun e => s.log.live.sent - e.next

/-- In some events, no reader ever has more lines to get than the broadcast keeps. -/
def Steady (s : State) (events : List Event) : Prop :=
  ∀ front, front <+: events → (front.foldl State.step s).behind ≤ capacity

theorem Steady.front {s : State} {front back : List Event} (steady : Steady s (front ++ back)) :
    Steady s front :=
  fun _ begins => steady _ (begins.trans (List.prefix_append front back))

theorem Steady.back {s : State} {front back : List Event} (steady : Steady s (front ++ back)) :
    Steady (front.foldl State.step s) back := by
  intro more begins
  rw [← List.foldl_append]
  exact steady _ ((List.prefix_append_right_inj front).mpr begins)

/-- If no reader lags in some events, they lead from one state to another. -/
def Leads (s : State) (events : List Event) (s' : State) : Prop :=
  Steady s events → events.foldl State.step s = s'

theorem Leads.trans {s s' s'' : State} {front back : List Event} (first : Leads s front s')
    (second : Leads s' back s'') : Leads s (front ++ back) s'' := by
  intro steady
  have reached := first steady.front
  have later := steady.back
  rw [reached] at later
  rw [List.foldl_append, reached, second later]

/-- What happens within one part of the watching. -/
def Event.within : Echo.Event → Event
  | .logged text => .logged text
  | .turn => .turn

/-- What happens in one part of the watching, up to its end. -/
def part (events : List Echo.Event) : List Event := events.map Event.within ++ [.proceed]

/-- The parts of the watching in which somebody reads. -/
def Role (role : Echo → Watch) : Prop := role = .starting ∨ role = .serving ∨ role = .stopping

theorem behind_eq {role : Echo → Watch} (is : Role role) (reads : Reads log e sent got left) :
    State.behind ⟨log, role e, told⟩ = left.length := by
  rcases is with rfl | rfl | rfl
  all_goals exact reads.unread_eq

theorem turn_eq {role : Echo → Watch} (is : Role role) (reads : Reads log e sent got left)
    (near : left.length ≤ capacity) : (role e).turn log.live = role (e.poll log.live) := by
  rcases is with rfl | rfl | rfl
  · rfl
  · exact congrArg Watch.serving (reads.pollQuietly_eq near)
  · rfl

/-- While somebody reads and does not lag, the books are kept. -/
theorem foldl_within {role : Echo → Watch} (is : Role role) (reads : Reads log e sent got left)
    (events : List Echo.Event)
    (steady : Steady ⟨log, role e, told⟩ (events.map Event.within)) :
    ∃ e', (events.map Event.within).foldl State.step ⟨log, role e, told⟩ =
        ⟨log.lines (logged events), role e', told⟩ ∧
      Reads (log.lines (logged events)) e' (sent ++ logged events)
        (events.foldl account (got, left)).1 (events.foldl account (got, left)).2 := by
  induction events generalizing log e sent got left with
  | nil => exact ⟨e, rfl, by rwa [logged, List.filterMap_nil, List.append_nil]⟩
  | cons event events ih =>
    -- the reader is near enough now, and after the event for all that is to come
    have near : left.length ≤ capacity := by
      have behind : State.behind ⟨log, role e, told⟩ = left.length := behind_eq is reads
      rw [← behind]
      exact steady [] List.nil_prefix
    have later := @Steady.back _ [Event.within event] _ steady
    cases event with
    | logged text =>
      obtain ⟨e', run, reads'⟩ := ih (reads.line text) later
      rw [List.append_assoc] at reads'
      exact ⟨e', run, reads'⟩
    | turn =>
      have step : State.step ⟨log, role e, told⟩ .turn = ⟨log, role (e.poll log.live), told⟩ :=
        congrArg (State.mk log · told) (turn_eq is reads near)
      rw [List.foldl_cons, List.foldl_nil, Event.within, step] at later
      obtain ⟨e', run, reads'⟩ := ih (reads.poll near) later
      refine ⟨e', ?_, reads'⟩
      rw [List.map_cons, List.foldl_cons, Event.within, step, run]
      rfl

/-- While nobody reads, lines are logged and nothing else happens. -/
theorem foldl_unread {w : Watch} (absent : w.reader? = none) (events : List Echo.Event) :
    (events.map Event.within).foldl State.step ⟨log, w, told⟩ =
      ⟨log.lines (logged events), w, told⟩ := by
  induction events generalizing log with
  | nil => rfl
  | cons event events ih =>
    cases event with
    | logged text => exact ih
    | turn =>
      have same : w.turn log.live = w := by
        cases w with
        | started | interrupted | ended => rfl
        | starting e | serving e | stopping e => cases absent
      rw [List.map_cons, List.foldl_cons, Event.within, State.step]
      dsimp only
      rw [same]
      exact ih

theorem foldl_part (s : State) (events : List Echo.Event) :
    (part events).foldl State.step s =
      State.step ((events.map Event.within).foldl State.step s) .proceed := by
  rw [part, List.foldl_append]
  rfl

/-- When what is left is read at the end of a part, all lines of the part are shown. -/
theorem part_drained {role : Echo → Watch} (is : Role role) (next : Watch)
    (drained : ∀ e b, (role e).proceed b = (next, (e.drain b).told))
    (carries : log.live.Carries sent) (events : List Echo.Event) :
    Leads ⟨log, role (.ofNow log.live), told⟩ (part events)
      ⟨log.lines (logged events), next, told ++ (logged events).map .line⟩ := by
  intro steady
  obtain ⟨e, run, reads⟩ := foldl_within is (Echo.reads_ofNow carries) events steady.front
  have near := steady.front _ List.prefix_rfl
  rw [run, behind_eq is reads] at near
  have shown := reads.drain_told near
  rw [Echo.foldl_account, List.append_nil, List.nil_append] at shown
  rw [foldl_part, run, State.step]
  dsimp only
  rw [drained, shown]

/-- While the server runs, the lines that its reader gets are shown. -/
theorem part_serving (carries : log.live.Carries sent) (events : List Echo.Event) :
    Leads ⟨log, .serving (.ofNow log.live), told⟩ (part events)
      ⟨log.lines (logged events), .interrupted, told ++ (taken events).map .line⟩ := by
  intro steady
  obtain ⟨e, run, reads⟩ :=
    foldl_within (.inr (.inl rfl)) (Echo.reads_ofNow carries) events steady.front
  rw [foldl_part, run, State.step]
  dsimp only [proceed]
  rw [reads.told, taken]

/-- Where somebody reads again, the reader gets what is logged from then on. -/
theorem part_unread {w : Watch} {role : Echo → Watch} (absent : w.reader? = none)
    (proceeds : ∀ b, w.proceed b = (role (.ofNow b), [])) (events : List Echo.Event) :
    Leads ⟨log, w, told⟩ (part events)
      ⟨log.lines (logged events), role (.ofNow (log.lines (logged events)).live), told⟩ := by
  intro
  rw [foldl_part, foldl_unread absent, State.step]
  dsimp only
  rw [proceeds, List.append_nil]

/-- What can happen while a server is watched, from the first reader to the last, in the five parts
of the watching. -/
structure Course where
  starting : List Echo.Event
  started : List Echo.Event
  serving : List Echo.Event
  interrupted : List Echo.Event
  stopping : List Echo.Event

namespace Course

def events (c : Course) : List Event :=
  part c.starting ++ (part c.started ++ (part c.serving ++ (part c.interrupted ++ part c.stopping)))

/-- The lines that are logged from the beginning to the end. -/
def logged (c : Course) : List String :=
  Echo.logged c.starting ++ Echo.logged c.started ++ Echo.logged c.serving ++
    Echo.logged c.interrupted ++ Echo.logged c.stopping

/-- The lines that one of the readers gets. -/
def shown (c : Course) : List String :=
  Echo.logged c.starting ++ taken c.serving ++ Echo.logged c.stopping

/-- The lines that are logged while nobody reads, or left over when the user interrupts. -/
def missed (c : Course) : List String :=
  Echo.logged c.started ++ leftOver c.serving ++ Echo.logged c.interrupted

theorem shown_sublist (c : Course) : c.shown.Sublist c.logged := by
  -- the second reader gets what was logged first
  have serving : (taken c.serving).Sublist (Echo.logged c.started ++ Echo.logged c.serving ++
      Echo.logged c.interrupted) := by
    rw [← Echo.taken_append_leftOver c.serving]
    simp only [List.append_assoc]
    exact (List.sublist_append_left _ _).trans (List.sublist_append_right _ _)
  have whole := ((List.Sublist.refl (Echo.logged c.starting)).append serving).append
    (List.Sublist.refl (Echo.logged c.stopping))
  simpa only [shown, logged, List.append_assoc] using whole

/-- Each line is shown or missed, and none is both or shown twice. -/
theorem shown_append_missed (c : Course) : (c.shown ++ c.missed).Perm c.logged := by
  -- the lines that are missed lie between those that are shown, so each line is counted
  rw [List.perm_iff_count]
  intro text
  have serving := congrArg (List.count text) (Echo.taken_append_leftOver c.serving)
  rw [List.count_append] at serving
  simp only [shown, missed, logged, List.count_append]
  omega

theorem shown_eq_iff (c : Course) : c.shown = c.logged ↔ c.missed = [] := by
  have lengths := c.shown_append_missed.length_eq
  rw [List.length_append] at lengths
  constructor
  · intro same
    rw [← List.length_eq_zero_iff]
    rw [same] at lengths
    omega
  · intro empty
    rw [empty, List.length_nil] at lengths
    exact c.shown_sublist.eq_of_length lengths

end Course

/-- The watching begins with a reader for what is logged from now on. -/
def State.initial (log : Log) : State := { log, watch := .starting (.ofNow log.live) }

theorem run_eq (log : Log) (events : List Event) :
    run log events = events.foldl State.step (.initial log) := rfl

/-- If no reader lags, the user is shown what the readers get. -/
theorem Course.leads (c : Course) (carries : log.live.Carries sent) :
    Leads (.initial log) c.events ⟨log.lines c.logged, .ended, c.shown.map .line⟩ := by
  have carries₂ := Log.carries_lines (Log.carries_lines carries (Echo.logged c.starting))
    (Echo.logged c.started)
  have carries₄ := Log.carries_lines (Log.carries_lines carries₂ (Echo.logged c.serving))
    (Echo.logged c.interrupted)
  have first : Leads (.initial log) (part c.starting)
      ⟨log.lines (Echo.logged c.starting), .started, [] ++ (Echo.logged c.starting).map .line⟩ :=
    part_drained (.inl rfl) .started (fun _ _ => rfl) carries c.starting
  -- each part begins where the one before it has ended
  have whole := first.trans
    ((part_unread rfl (fun _ => rfl) c.started).trans
      ((part_serving carries₂ c.serving).trans
        ((part_unread rfl (fun _ => rfl) c.interrupted).trans
          (part_drained (.inr (.inr rfl)) .ended (fun _ _ => rfl) carries₄ c.stopping))))
  simpa only [events, logged, shown, State.initial, Log.lines, List.foldl_append, List.map_append,
    List.nil_append] using whole

theorem within_or_part (events : List Event) :
    (∃ inside : List Echo.Event, events = inside.map Event.within) ∨
      ∃ inside later, events = part inside ++ later := by
  induction events with
  | nil => exact .inl ⟨[], rfl⟩
  | cons event events ih =>
    -- what comes before the first end of a part
    have more (first : Echo.Event) (same : event = Event.within first) :
        (∃ inside : List Echo.Event, event :: events = inside.map Event.within) ∨
          ∃ inside later, event :: events = part inside ++ later := by
      rcases ih with ⟨inside, rfl⟩ | ⟨inside, later, rfl⟩
      · exact .inl ⟨first :: inside, by rw [same]; rfl⟩
      · exact .inr ⟨first :: inside, later, by rw [same]; rfl⟩
    cases event with
    | logged text => exact more (.logged text) rfl
    | turn => exact more .turn rfl
    | proceed => exact .inr ⟨[], events, rfl⟩

/-- How many parts of the watching are still to end. -/
def remaining : Watch → Nat
  | .starting _ => 5
  | .started => 4
  | .serving _ => 3
  | .interrupted => 2
  | .stopping _ => 1
  | .ended => 0

theorem remaining_turn (w : Watch) (b : Broadcast) : (w.turn b).remaining = w.remaining := by
  cases w <;> rfl

theorem remaining_proceed (w : Watch) (b : Broadcast) :
    (w.proceed b).1.remaining = w.remaining - 1 := by
  cases w <;> rfl

theorem remaining_within (s : State) (inside : List Echo.Event) :
    ((inside.map Event.within).foldl State.step s).watch.remaining = s.watch.remaining := by
  induction inside generalizing s with
  | nil => rfl
  | cons event inside ih =>
    rw [List.map_cons, List.foldl_cons, ih]
    cases event with
    | logged text => rfl
    | turn => exact remaining_turn s.watch s.log.live

/-- A watching that comes to its end goes through all parts that are left. -/
theorem exists_parts {s : State} {events : List Event}
    (ended : (events.foldl State.step s).watch = .ended) :
    ∃ (parts : List (List Echo.Event)) (later : List Event),
      parts.length = s.watch.remaining ∧ events = parts.flatMap part ++ later := by
  induction left : s.watch.remaining generalizing s events with
  | zero => exact ⟨[], events, rfl, rfl⟩
  | succ more ih =>
    rcases within_or_part events with ⟨inside, rfl⟩ | ⟨inside, rest, rfl⟩
    · -- no part ends, and one is left
      have same := remaining_within s inside
      rw [ended, left] at same
      cases same
    · rw [List.foldl_append] at ended
      have next : ((part inside).foldl State.step s).watch.remaining = more := by
        rw [foldl_part, State.step]
        dsimp only
        rw [remaining_proceed, remaining_within, left, Nat.add_sub_cancel]
      obtain ⟨parts, later, length, rfl⟩ := ih ended next
      refine ⟨inside :: parts, later, congrArg Nat.succ length, ?_⟩
      rw [List.flatMap_cons, List.append_assoc]

theorem exists_course {log : Log} {events : List Event} (ended : (run log events).watch = .ended) :
    ∃ (c : Course) (later : List Event), events = c.events ++ later := by
  rw [run_eq] at ended
  obtain ⟨parts, later, length, rfl⟩ := exists_parts ended
  match parts, length with
  | [first, second, third, fourth, fifth], _ =>
    refine ⟨⟨first, second, third, fourth, fifth⟩, later, ?_⟩
    simp only [Course.events, List.flatMap_cons, List.flatMap_nil, List.append_nil]

/-- Nothing more is shown after the end. -/
theorem told_of_ended {s : State} (ended : s.watch = .ended) (events : List Event) :
    (events.foldl State.step s).told = s.told := by
  induction events generalizing s with
  | nil => rfl
  | cons event events ih =>
    have next : (s.step event).watch = .ended ∧ (s.step event).told = s.told := by
      cases event with
      | logged text => exact ⟨ended, rfl⟩
      | turn => simp [State.step, ended, turn]
      | proceed => simp [State.step, ended, proceed]
    rw [List.foldl_cons, ih next.1, next.2]

theorem map_line_inj {lines lines' : List String}
    (same : lines.map Notice.line = lines'.map Notice.line) : lines = lines' :=
  List.map_injective_iff.mpr (fun _ _ => Notice.line.inj) same

/-- However the lines that are logged and the turns of the readers lie while a server is watched to
the end, and whatever was done with the log before: if no reader ever has more lines to get than the
broadcast keeps, the user is shown exactly the lines that the readers get, each of them once and in
the order of the log. These are all the lines that are logged from the beginning to the end if and
only if none is logged between two readers and none is left over when the user interrupts. -/
theorem whole_log_shown_iff (history : List Log.Step) (events : List Event)
    (ended : (run (Log.run history) events).watch = .ended)
    (steady : Steady (.initial (Log.run history)) events) :
    ∃ (c : Course) (later : List Event), events = c.events ++ later ∧
      (run (Log.run history) events).told = c.shown.map .line ∧
      c.shown.Sublist c.logged ∧ (c.shown ++ c.missed).Perm c.logged ∧
      ((run (Log.run history) events).told = c.logged.map .line ↔ c.missed = []) := by
  obtain ⟨c, later, rfl⟩ := exists_course ended
  have course := c.leads (Log.carries_run history) steady.front
  have told : (run (Log.run history) (c.events ++ later)).told = c.shown.map .line := by
    rw [run_eq, List.foldl_append, course]
    exact told_of_ended rfl later
  -- a line that is told of is one line, so the same is told of the same lines only
  refine ⟨c, later, rfl, told, c.shown_sublist, c.shown_append_missed, ?_⟩
  rw [told, ← c.shown_eq_iff]
  exact ⟨map_line_inj, fun same => by rw [same]⟩

/-- A server that logs a line in every part of the watching, and one just before the interrupt. -/
def chatter : Course where
  starting := [.logged "up"]
  started := [.logged "ready"]
  serving := [.logged "asked", .turn, .logged "answered"]
  interrupted := [.logged "warned"]
  stopping := [.logged "down"]

theorem chatter_watched : (run (Log.run []) chatter.events).watch = .ended ∧
    Steady (.initial (Log.run [])) chatter.events ∧
    ∃ (c : Course) (later : List Event), chatter.events = c.events ++ later ∧
      (run (Log.run []) chatter.events).told = c.shown.map .line ∧
      c.shown.Sublist c.logged ∧ (c.shown ++ c.missed).Perm c.logged ∧
      ((run (Log.run []) chatter.events).told = c.logged.map .line ↔ c.missed = []) := by
  have ended : (run (Log.run []) chatter.events).watch = .ended := rfl
  have steady : Steady (.initial (Log.run [])) chatter.events := by
    intro front begins
    have each : ∀ front ∈ chatter.events.inits,
        (front.foldl State.step (.initial (Log.run []))).behind ≤ capacity := by decide +kernel
    exact each front ((List.mem_inits _ _).mpr begins)
  exact ⟨ended, steady, whole_log_shown_iff [] chatter.events ended steady⟩

/-- Half of the lines are not shown, though no reader is ever more than one line behind. -/
theorem chatter_missed : chatter.logged = ["up", "ready", "asked", "answered", "warned", "down"] ∧
    (run (Log.run []) chatter.events).told = [.line "up", .line "asked", .line "down"] := by
  decide +kernel

end Watch

end Workbench.Console
