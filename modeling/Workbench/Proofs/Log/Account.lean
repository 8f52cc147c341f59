import Mathlib.Data.List.DropRight
import Workbench.Log.Basic
import Workbench.Proofs.Log.Broadcast

/-! What a log shows and what its subscribers are told, after any steps. The text has the lines since
it was last cleared. A subscriber accounts for every line since it came: it has got the line, it was
told that the line is lost, or it has still to get it. So lines that are added to any log stand at the
end of its text, and come to each of its subscribers behind what that had to get before. -/
namespace Workbench.Log

open Broadcast (capacity Carries Follows)

/-- What can be done with a log, by any of those who share it. -/
inductive Step where
  | line (text : String)
  | clear
  | subscribe
  | receive (subscriber : Nat)
  deriving DecidableEq

def Step.line? : Step → Option String
  | .line text => some text
  | _ => none

def perform (log : Log) : Step → Log
  | .line text => log.line text
  | .clear => log.clear
  | .subscribe => log.subscribe.2
  | .receive subscriber => (log.receive subscriber).2

/-- A new log after some steps. -/
def run (steps : List Step) : Log := steps.foldl perform {}

/-- What a subscriber is told in a step. -/
def toldIn (log : Log) (subscriber : Nat) : Step → List Reception
  | .receive s => if s = subscriber then [(log.receive subscriber).1] else []
  | _ => []

/-- What a subscriber is told in some steps, in order. -/
def told (subscriber : Nat) : Log → List Step → List Reception
  | _, [] => []
  | log, step :: rest => log.toldIn subscriber step ++ told subscriber (log.perform step) rest

/-- The lines that are added in some steps. -/
def added (steps : List Step) : List String := steps.filterMap Step.line?

/-- The lines that are added after the log was last cleared. -/
def shown (steps : List Step) : List String := added (steps.rtakeWhile (· ≠ .clear))

/-- The lines that are added after a subscriber has come. Subscribers are numbered as they come. -/
def linesFor : (subscriber : Nat) → List Step → List String
  | _, [] => []
  | subscriber, step :: rest =>
    if step = .subscribe then
      match subscriber with
      | 0 => added rest
      | before + 1 => linesFor before rest
    else linesFor subscriber rest

/-- The text that some lines make. -/
def textOf (lines : List String) : String := String.join (lines.map (· ++ "\n"))

theorem textOf_append (front back : List String) :
    textOf (front ++ back) = textOf front ++ textOf back := by
  simp [textOf]

theorem textOf_singleton (line : String) : textOf [line] = line ++ "\n" := by
  simp [textOf]

theorem added_of_silent {step : Step} (silent : step.line? = none) : added [step] = [] := by
  simp [added, silent]

theorem added_append (front back : List Step) : added (front ++ back) = added front ++ added back :=
  List.filterMap_append

variable {steps : List Step} {log : Log} {subscriber : Nat}

theorem run_append (front back : List Step) : run (front ++ back) = back.foldl perform (run front) :=
  List.foldl_append

theorem run_concat (steps : List Step) (step : Step) :
    run (steps ++ [step]) = (run steps).perform step := run_append steps [step]

theorem told_append (front back : List Step) :
    told subscriber log (front ++ back) =
      told subscriber log front ++ told subscriber (front.foldl perform log) back := by
  induction front generalizing log with
  | nil => rfl
  | cons step rest ih => rw [List.cons_append, told, told, ih, List.append_assoc, List.foldl_cons]

theorem told_concat (steps : List Step) (step : Step) :
    told subscriber {} (steps ++ [step]) =
      told subscriber {} steps ++ (run steps).toldIn subscriber step := by
  rw [told_append, told, told, List.append_nil]
  rfl

theorem linesFor_cons (subscriber : Nat) (step : Step) (rest : List Step) :
    linesFor subscriber (step :: rest) =
      if step = .subscribe then
        match subscriber with
        | 0 => added rest
        | before + 1 => linesFor before rest
      else linesFor subscriber rest := by
  cases subscriber <;> rfl

/-- A subscriber that was there before is concerned by all lines that are added later. -/
theorem linesFor_append (there : subscriber < steps.count .subscribe) (later : List Step) :
    linesFor subscriber (steps ++ later) = linesFor subscriber steps ++ added later := by
  -- each subscriber that comes earlier takes one off the number, until the subscriber itself comes
  induction steps generalizing subscriber with
  | nil => simp at there
  | cons first rest ih =>
    rw [List.cons_append, linesFor_cons, linesFor_cons]
    by_cases comes : first = .subscribe
    · rw [if_pos comes, if_pos comes]
      rw [comes, List.count_cons_self] at there
      cases subscriber with
      | zero => exact added_append rest later
      | succ before => exact ih (Nat.lt_of_succ_lt_succ there)
    · rw [if_neg comes, if_neg comes]
      rw [List.count_cons_of_ne comes] at there
      exact ih there

/-- No line has been added yet for a subscriber that comes. -/
theorem linesFor_new (steps : List Step) :
    linesFor (steps.count .subscribe) (steps ++ [.subscribe]) = [] := by
  induction steps with
  | nil => rfl
  | cons first rest ih =>
    rw [List.cons_append, linesFor_cons]
    by_cases comes : first = .subscribe
    · rw [if_pos comes, comes, List.count_cons_self]
      exact ih
    · rw [if_neg comes, List.count_cons_of_ne comes, ih]

theorem text_line (log : Log) (text : String) :
    (log.line text).text = log.text ++ textOf [text] := by
  rw [textOf_singleton, ← String.append_assoc]
  rfl

theorem text_run (steps : List Step) : (run steps).text = textOf (shown steps) := by
  -- from the last step backwards: either it clears the text, or it is shown after all before it
  induction steps using List.reverseRecOn with
  | nil => rfl
  | append_singleton steps step ih =>
    rw [run_concat, shown, List.rtakeWhile_concat]
    cases step with
    | line text =>
      rw [if_pos (by simp), added_append, textOf_append, ← shown, ← ih]
      exact text_line _ text
    | clear => rfl
    | subscribe => rwa [if_pos (by simp), added_append, added_of_silent rfl, List.append_nil]
    | receive s => rwa [if_pos (by simp), added_append, added_of_silent rfl, List.append_nil]

/-- What becomes of the broadcast does not depend on the text. -/
theorem live_perform {log' : Log} (same : log.live = log'.live) (step : Step) :
    (log.perform step).live = (log'.perform step).live := by
  cases step <;> simp [perform, line, append, send, clear, subscribe, receive, same]

theorem live_filter_clear {log' : Log} (same : log.live = log'.live) (steps : List Step) :
    ((steps.filter (· ≠ .clear)).foldl perform log).live = (steps.foldl perform log').live := by
  induction steps generalizing log log' with
  | nil => exact same
  | cons step rest ih =>
    by_cases clears : step = .clear
    · subst clears
      exact ih (same : log.live = (log'.perform .clear).live)
    · rw [List.filter_cons_of_pos (by simpa using clears)]
      exact ih (live_perform same step)

theorem told_filter_clear {log' : Log} (same : log.live = log'.live) (steps : List Step) :
    told subscriber log (steps.filter (· ≠ .clear)) = told subscriber log' steps := by
  induction steps generalizing log log' with
  | nil => rfl
  | cons step rest ih =>
    by_cases clears : step = .clear
    · subst clears
      exact ih (same : log.live = (log'.perform .clear).live)
    · have first : log.toldIn subscriber step = log'.toldIn subscriber step := by
        cases step <;> simp [toldIn, receive, same]
      rw [List.filter_cons_of_pos (by simpa using clears), told, told, first,
        ih (live_perform same step)]

theorem length_next (steps : List Step) : (run steps).live.next.length = steps.count .subscribe := by
  induction steps using List.reverseRecOn with
  | nil => rfl
  | append_singleton steps step ih =>
    rw [run_concat, List.count_append, ← ih]
    cases step with
    | line text => simp [perform, line, append, send, Broadcast.send_next]
    | clear => simp [perform, clear]
    | subscribe => simp [perform, subscribe, Broadcast.subscribe]
    | receive s =>
      simp only [perform, receive, Broadcast.receive]
      split <;> simp

/-- A subscriber is told something only when it asks. -/
theorem toldIn_of_other (log : Log) {step : Step} (other : step ≠ .receive subscriber) :
    log.toldIn subscriber step = [] := by
  cases step with
  | receive s => exact if_neg fun same => other (congrArg Step.receive same)
  | line text => rfl
  | clear => rfl
  | subscribe => rfl

theorem told_of_others (log : Log) (others : .receive subscriber ∉ steps) :
    told subscriber log steps = [] := by
  induction steps generalizing log with
  | nil => rfl
  | cons step rest ih =>
    rw [List.mem_cons, not_or] at others
    rw [told, log.toldIn_of_other (Ne.symm others.1), ih _ others.2, List.append_nil]

section

variable {sent : List String} (carries : log.live.Carries sent)
include carries

theorem carries_perform (step : Step) : (log.perform step).live.Carries (sent ++ added [step]) := by
  cases step with
  | line text => exact carries.send text
  | clear => rwa [added_of_silent rfl, List.append_nil]
  | subscribe =>
    rw [added_of_silent rfl, List.append_nil]
    exact carries.subscribe
  | receive s =>
    rw [added_of_silent rfl, List.append_nil]
    exact carries.receive s

theorem carries_foldl (steps : List Step) :
    (steps.foldl perform log).live.Carries (sent ++ added steps) := by
  induction steps generalizing log sent with
  | nil => rwa [added, List.filterMap_nil, List.append_nil]
  | cons step rest ih =>
    rw [List.foldl_cons, ← List.singleton_append, added_append, ← List.append_assoc]
    exact ih (carries_perform carries step)

variable {joined next : Nat} {got : List Reception}
  (follows : log.live.Follows sent subscriber joined got next) (early : joined ≤ sent.length)
include follows early

omit carries in
/-- A subscriber that is not asked about stays where it is. -/
theorem follows_other {step : Step} (other : step ≠ .receive subscriber) :
    (log.perform step).live.Follows (sent ++ added [step]) subscriber joined got next := by
  cases step with
  | line text => exact follows.send text early
  | clear => rwa [added_of_silent rfl, List.append_nil]
  | subscribe =>
    rw [added_of_silent rfl, List.append_nil]
    exact follows.subscribe
  | receive s =>
    rw [added_of_silent rfl, List.append_nil]
    exact follows.receive_other s fun same => other (congrArg Step.receive same)

omit carries in
theorem follows_others (others : .receive subscriber ∉ steps) :
    (steps.foldl perform log).live.Follows (sent ++ added steps) subscriber joined got next := by
  induction steps generalizing log sent with
  | nil => rwa [added, List.filterMap_nil, List.append_nil]
  | cons step rest ih =>
    rw [List.mem_cons, not_or] at others
    rw [List.foldl_cons, ← List.singleton_append, added_append, ← List.append_assoc]
    refine ih (follows_other follows early (Ne.symm others.1)) ?_ others.2
    rw [List.length_append]
    exact Nat.le_trans early (Nat.le_add_right _ _)

theorem follows_perform (step : Step) :
    ∃ next, (log.perform step).live.Follows (sent ++ added [step]) subscriber joined
      (got ++ log.toldIn subscriber step) next := by
  by_cases own : step = .receive subscriber
  · subst own
    rw [added_of_silent rfl, List.append_nil, toldIn, if_pos rfl]
    exact ⟨_, follows.receive_self carries⟩
  · rw [log.toldIn_of_other own, List.append_nil]
    exact ⟨next, follows_other follows early own⟩

end

theorem carries_run (steps : List Step) : (run steps).live.Carries (added steps) := by
  have start : (live {}).Carries [] := Broadcast.carries_new
  exact carries_foldl start steps

/-- Nobody is told of a line before coming. -/
theorem told_early (steps : List Step) (subscriber : Nat)
    (absent : steps.count .subscribe ≤ subscriber) :
    ∀ reception ∈ told subscriber {} steps, reception = .empty := by
  induction steps using List.reverseRecOn with
  | nil => simp [told]
  | append_singleton steps step ih =>
    rw [List.count_append] at absent
    rw [told_concat]
    intro reception member
    rcases List.mem_append.mp member with earlier | now
    · exact ih (Nat.le_trans (Nat.le_add_right _ _) absent) reception earlier
    · -- only a step in which it asks tells it something, and it has no place yet
      cases step with
      | receive s =>
        have placeless : (run steps).live.next[subscriber]? = none := by
          rw [List.getElem?_eq_none_iff, length_next]
          exact Nat.le_trans (Nat.le_add_right _ _) absent
        rw [toldIn] at now
        split at now
        · rw [List.mem_singleton.mp now, receive, Broadcast.receive, placeless]
        · cases now
      | line text => cases now
      | clear => cases now
      | subscribe => cases now

/-- Whatever the steps, a subscriber follows the lines that are added after it has come. -/
theorem follows_run (steps : List Step) (subscriber : Nat)
    (there : subscriber < steps.count .subscribe) :
    ∃ joined next, joined ≤ (added steps).length ∧
      linesFor subscriber steps = (added steps).drop joined ∧
      (run steps).live.Follows (added steps) subscriber joined (told subscriber {} steps) next := by
  induction steps using List.reverseRecOn with
  | nil => simp at there
  | append_singleton steps step ih =>
    have carries := carries_run steps
    rw [run_concat, added_append, told_concat]
    by_cases before : subscriber < steps.count .subscribe
    · obtain ⟨joined, next, early, since, follows⟩ := ih before
      obtain ⟨next', follows'⟩ := follows_perform carries follows early step
      refine ⟨joined, next', ?_, ?_, follows'⟩
      · rw [List.length_append]
        exact Nat.le_trans early (Nat.le_add_right _ _)
      · rw [linesFor_append before, since, List.drop_append_of_le_length early]
    · -- the subscriber comes in this step
      have comes : step = .subscribe ∧ subscriber = steps.count .subscribe := by
        rw [List.count_append, List.count_singleton] at there
        split at there
        next same => exact ⟨by simpa using same, by omega⟩
        next => omega
      obtain ⟨rfl, rfl⟩ := comes
      have told : told (steps.count .subscribe) {} steps ++
          (run steps).toldIn (steps.count .subscribe) .subscribe =
            told (steps.count .subscribe) {} steps := List.append_nil _
      have follows := Broadcast.follows_subscribe carries _
        (told_early steps (steps.count .subscribe) (Nat.le_refl _))
      rw [length_next] at follows
      rw [told, added_of_silent rfl, List.append_nil, linesFor_new]
      exact ⟨_, _, Nat.le_refl _, by simp, follows⟩

/-- The last lines, which a broadcast keeps. -/
def recent (lines : List String) : List String := lines.drop (lines.length - capacity)

theorem length_recent {lines : List String} (many : capacity ≤ lines.length) :
    (recent lines).length = capacity := by
  rw [recent, List.length_drop]
  omega

theorem recent_drop {lines : List String} (start : Nat)
    (many : capacity < (lines.drop start).length) : recent (lines.drop start) = recent lines := by
  rw [List.length_drop] at many
  have place : start + (lines.length - start - capacity) = lines.length - capacity := by omega
  rw [recent, recent, List.drop_drop, List.length_drop, place]

/-- Some lines were added to a log. They stand at the end of its text. Subscribers keep their places,
and whoever is behind has still to get the last of the lines that it had to get and of these. -/
structure Gains (log log' : Log) (lines : List String) : Prop where
  text : log'.text = log.text ++ textOf lines
  next : log'.live.next = log.live.next
  carries : ∀ sent, log.live.Carries sent → log'.live.Carries (sent ++ lines)
  pending : ∀ sent, log.live.Carries sent → ∀ next ≤ sent.length,
    log'.live.pending next = recent (sent.drop next ++ lines)

theorem text_lines (log : Log) (lines : List String) :
    (log.lines lines).text = log.text ++ textOf lines := by
  induction lines generalizing log with
  | nil => exact (String.append_empty).symm
  | cons text rest ih =>
    rw [← List.singleton_append, lines_append, ih, textOf_append, ← String.append_assoc]
    exact congrArg (· ++ textOf rest) (log.text_line text)

theorem next_lines (log : Log) (lines : List String) :
    (log.lines lines).live.next = log.live.next := by
  induction lines generalizing log with
  | nil => rfl
  | cons text rest ih => exact (ih (log.line text)).trans (Broadcast.send_next log.live text)

theorem carries_lines {sent : List String} (carries : log.live.Carries sent)
    (lines : List String) : (log.lines lines).live.Carries (sent ++ lines) := by
  induction lines generalizing log sent with
  | nil => rwa [List.append_nil]
  | cons text lines ih =>
    rw [List.append_cons]
    exact ih (carries.send text)

theorem gains_lines (log : Log) (lines : List String) : log.Gains (log.lines lines) lines where
  text := log.text_lines lines
  next := log.next_lines lines
  carries sent carries := carries_lines carries lines
  pending sent carries next within := by
    rw [(carries_lines carries lines).pending_eq next, List.drop_append_of_le_length within]
    rfl

theorem Gains.trans {log' log'' : Log} {lines more : List String} (first : Gains log log' lines)
    (second : Gains log' log'' more) : Gains log log'' (lines ++ more) where
  text := by rw [second.text, first.text, textOf_append, String.append_assoc]
  next := second.next.trans first.next
  carries sent carries := by
    rw [← List.append_assoc]
    exact second.carries _ (first.carries sent carries)
  pending sent carries next within := by
    have early : next ≤ (sent ++ lines).length := by
      rw [List.length_append]
      exact Nat.le_trans within (Nat.le_add_right _ _)
    rw [second.pending _ (first.carries sent carries) next early,
      List.drop_append_of_le_length within, List.append_assoc]

/-- How a subscriber accounts for the lines that were added since it came, when it has not been told
of the last of them, `unread`. -/
structure Accounted (steps : List Step) (subscriber : Nat) (unread : List String) : Prop where
  /-- What it was told covers the other lines, one run of them after the other. -/
  covers : ∃ parts, List.Forall₂ Reception.Covers (told subscriber {} steps) parts ∧
    linesFor subscriber steps = parts.flatten ++ unread
  pending : ∃ next, (run steps).live.next[subscriber]? = some next ∧
    (run steps).live.pending next = recent unread
  lags : ∀ lost, ((run steps).receive subscriber).1 = .lagged lost ↔
    capacity < unread.length ∧ lost = unread.length - capacity
  gets : unread.length ≤ capacity →
    ((run steps).receive subscriber).1 = unread.head?.elim .empty .line

section

variable {joined next : Nat}
  (follows : (run steps).live.Follows (added steps) subscriber joined (told subscriber {} steps) next)
include follows

theorem accounted_of_follows (since : linesFor subscriber steps = (added steps).drop joined) :
    Accounted steps subscriber ((added steps).drop next) := by
  have carries := carries_run steps
  have reception : ((run steps).receive subscriber).1 = ((run steps).live.receiveAt next).1 := by
    rw [receive, follows.receive_eq]
  obtain ⟨parts, covers, whole⟩ := follows.covers
  refine ⟨⟨parts, covers, since.trans whole⟩, ⟨next, follows.waits, carries.pending_eq next⟩, ?_, ?_⟩
  · -- lines are lost exactly if there is more to get than is kept
    intro lost
    rw [reception]
    by_cases behind : capacity < ((added steps).drop next).length
    · rw [carries.receiveAt_of_behind next behind, Reception.lagged.injEq]
      exact ⟨fun same => ⟨behind, same.symm⟩, fun both => both.2.symm⟩
    · rw [carries.receiveAt_of_near next follows.within (Nat.le_of_not_lt behind)]
      refine ⟨fun lagged => ?_, fun both => absurd both.1 behind⟩
      split at lagged <;> cases lagged
  · intro near
    rw [reception, carries.receiveAt_of_near next follows.within near]
    cases (added steps).drop next <;> rfl

/-- A subscriber that was told that lines are lost has still to get the last ones, and those that
are added before it asks again. -/
theorem follows_of_lagged (early : joined ≤ (added steps).length)
    (behind : capacity < ((added steps).drop next).length) (between : List Step)
    (others : .receive subscriber ∉ between) :
    (run (steps ++ .receive subscriber :: between)).live.Follows
      (added (steps ++ .receive subscriber :: between)) subscriber joined
      (told subscriber {} (steps ++ .receive subscriber :: between))
      ((added steps).length - capacity) := by
  have carries := carries_run steps
  have lagged : ((run steps).receive subscriber).2.live.Follows (added steps) subscriber joined _ _ :=
    follows.receive_self carries
  rw [carries.receiveAt_of_behind next behind] at lagged
  have later := follows_others lagged early others
  have adds : added (steps ++ .receive subscriber :: between) = added steps ++ added between :=
    added_append steps _
  have tells : told subscriber {} (steps ++ .receive subscriber :: between) =
      told subscriber {} steps ++ [((run steps).live.receive subscriber).1] := by
    rw [told_append, told, told_of_others _ others, toldIn, if_pos rfl, List.append_nil]
    rfl
  rw [adds, tells, run_append]
  exact later

end

/-- The text has the lines since it was last cleared. Clearing it changes nothing for subscribers.
Each of them was told of the lines since it came, without a gap and in their order, up to those that
it has not read. It is told that lines are lost only if it has not read more than are kept, and goes
on with the oldest that is kept then. A line that is added before takes the place of this one.

All clones of a log share it, so that it does not matter through which of them a step is done. -/
theorem lines_accounted (steps : List Step) :
    (run steps).text = textOf (shown steps) ∧
      (run (steps.filter (· ≠ .clear))).live = (run steps).live ∧
      (∀ subscriber,
        told subscriber {} (steps.filter (· ≠ .clear)) = told subscriber {} steps) ∧
      ∀ subscriber < steps.count .subscribe, ∃ unread, Accounted steps subscriber unread ∧
        (capacity < unread.length → ∀ between, .receive subscriber ∉ between →
          ∃ oldest, (recent unread).head? = some oldest ∧
            (recent (added steps)).head? = some oldest ∧
            ((run (steps ++ .receive subscriber :: between)).receive subscriber).1 =
              if added between = [] then .line oldest else .lagged (added between).length) := by
  refine ⟨text_run steps, live_filter_clear rfl steps, fun subscriber => told_filter_clear rfl steps,
    fun subscriber there => ?_⟩
  obtain ⟨joined, next, early, since, follows⟩ := follows_run steps subscriber there
  refine ⟨(added steps).drop next, accounted_of_follows follows since, ?_⟩
  intro behind between others
  -- when it asks again, it has to get the last lines that were kept, and those added since
  have adds : added (steps ++ .receive subscriber :: between) = added steps ++ added between :=
    added_append steps _
  have later : Accounted (steps ++ .receive subscriber :: between) subscriber
      (recent (added steps) ++ added between) := by
    have cut := accounted_of_follows (follows_of_lagged follows early behind between others) (by
      rw [linesFor_append there, since, adds, List.drop_append_of_le_length early]
      rfl)
    rwa [adds, List.drop_append_of_le_length (Nat.sub_le _ _)] at cut
  have full : (recent (added steps)).length = capacity := by
    rw [List.length_drop] at behind
    exact length_recent (by omega)
  rw [recent_drop next behind]
  obtain ⟨oldest, rest, kept⟩ := List.exists_cons_of_length_pos (l := recent (added steps))
    (by rw [full]; decide)
  refine ⟨oldest, by rw [kept]; rfl, by rw [kept]; rfl, ?_⟩
  by_cases silent : added between = []
  · rw [silent, List.append_nil] at later
    rw [if_pos silent, later.gets (Nat.le_of_eq full), kept]
    rfl
  · rw [if_neg silent, later.lags, List.length_append, full]
    have more := List.length_pos_iff.mpr silent
    omega

/-- Steps in which many lines are added for one subscriber. -/
def crowded (more : Nat) : List Step :=
  .subscribe :: .line "first" :: .line "second" :: List.replicate more (.line "more")

theorem count_crowded (more : Nat) : 0 < (crowded more).count .subscribe := by
  rw [crowded, List.count_cons_self]
  exact Nat.succ_pos _

theorem linesFor_crowded (more : Nat) :
    linesFor 0 (crowded more) = "first" :: "second" :: List.replicate more "more" := by
  have same : added (List.replicate more (.line "more")) = List.replicate more "more" :=
    List.filterMap_replicate_of_some rfl
  rw [← same]
  rfl

theorem told_crowded (more : Nat) : told 0 {} (crowded more) = [] := by
  refine told_of_others _ ?_
  simp [crowded]

/-- When there is one line more than are kept, the first one is lost. -/
theorem lines_accounted_crowded :
    0 < (crowded 1023).count .subscribe ∧ ((run (crowded 1023)).receive 0).1 = .lagged 1 ∧
      ((run (crowded 1023 ++ [.receive 0])).receive 0).1 = .line "second" := by
  have there := count_crowded 1023
  obtain ⟨unread, accounted, resumes⟩ := (lines_accounted (crowded 1023)).2.2.2 0 there
  obtain ⟨parts, covers, whole⟩ := accounted.covers
  rw [told_crowded] at covers
  cases covers
  rw [linesFor_crowded, List.flatten_nil, List.nil_append] at whole
  have length : unread.length = capacity + 1 := by
    rw [← whole, List.length_cons, List.length_cons, List.length_replicate, capacity]
  have lagged : capacity < unread.length := by omega
  obtain ⟨oldest, head, _, next⟩ := resumes lagged [] List.not_mem_nil
  rw [if_pos (by rfl)] at next
  rw [recent, length, Nat.add_sub_cancel_left, ← whole] at head
  cases head
  exact ⟨there, (accounted.lags 1).mpr ⟨lagged, by omega⟩, next⟩

end Workbench.Log
