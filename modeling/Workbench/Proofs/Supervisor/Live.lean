import Workbench.Proofs.Supervisor.World
import Workbench.Supervisor.Live

/-! A supervisor at work goes through states that can come about in the relation: between two
stages of its calls it adds to the log and changes the disk as other programs may, and a stage is
a turn of the call. -/
namespace Workbench

/-- Whether a strategy is asked to work. -/
def Need.IsWork : Need → Prop
  | .built _ | .served _ => True
  | _ => False

theorem Need.IsWork.isTrue (need : Need) (work : need.IsWork) (o : Outside) (d : Disk) :
    need.IsTrue o d := by
  cases need with
  | built | served => exact trivial
  | _ => cases work

theorem Need.IsWork.disk (need : Need) (work : need.IsWork) (kind : StrategyKind) (time : Int)
    (d : Disk) : need.disk kind time d = d := by
  cases need with
  | built | served => rfl
  | _ => cases work

/-- What a stage needs does not depend on the log. -/
theorem Stage.need_log (s : Supervisor) (log : Log) (stage : Stage) :
    stage.need { s with log } = stage.need s := by
  cases stage with
  | build p b => cases b <;> rfl
  | isRunning a => cases a <;> rfl
  | _ => rfl

/-- What a strategy is asked by a stage does not depend on the supervisor. -/
theorem Stage.need_of_isWork (s s' : Supervisor) (stage : Stage) (work : (stage.need s).IsWork) :
    stage.need s' = stage.need s := by
  have removal (r : Reaping) : ¬(r.need s).IsWork := by
    intro work
    cases r with
    | inspect =>
      simp only [Reaping.need] at work
      split at work <;> cases work
    | _ => cases work
  cases stage with
  | build p b =>
    cases b with
    | reap r => exact absurd work (removal r)
    | _ => rfl
  | isRunning a =>
    cases a with
    | reap r => exact absurd work (removal r)
    | _ => rfl
  | _ => rfl

namespace Live

/-- Nothing was done for a call but what was added to the log. -/
structure Around (l l' : Live) : Prop where
  strategy : l'.strategy = l.strategy
  calls : l'.calls = l.calls
  nextCall : l'.nextCall = l.nextCall
  supervisor : ∃ lines, l'.supervisor = { l.supervisor with log := l.supervisor.log.lines lines }

variable {l l' : Live}

theorem Around.refl (l : Live) : Around l l := ⟨rfl, rfl, rfl, [], rfl⟩

theorem Around.trans {l'' : Live} (first : Around l l') (second : Around l' l'') :
    Around l l'' := by
  obtain ⟨lines, same⟩ := first.supervisor
  obtain ⟨more, same'⟩ := second.supervisor
  refine ⟨second.strategy.trans first.strategy, second.calls.trans first.calls,
    second.nextCall.trans first.nextCall, lines ++ more, ?_⟩
  rw [same', same, Log.lines_append]

theorem around_foldl (f : Live → β → Live) (around : ∀ l b, Around l (f l b)) (items : List β)
    (l : Live) : Around l (items.foldl f l) := by
  induction items generalizing l with
  | nil => exact .refl l
  | cons b rest ih => exact (around l b).trans (ih (f l b))

theorem around_say (l : Live) (line : String) : Around l (l.say line) :=
  ⟨rfl, rfl, rfl, [line], rfl⟩

theorem around_host (l : Live) (host : Host) : Around l { l with host } :=
  ⟨rfl, rfl, rfl, [], rfl⟩

theorem around_onDisk (l : Live) (task : Task ε α) : Around l (l.onDisk task).2 := around_host l _

theorem around_gather (l : Live) (pid : Nat) : Around l (l.gather pid) :=
  (around_host l _).trans (around_foldl say around_say _ _)

theorem around_launch (l : Live) (c : Command) : Around l (l.launch c).2 :=
  ⟨rfl, rfl, rfl, [], rfl⟩

theorem around_listen (l : Live) (s : StaticServer) : Around l (l.listen s).2 := around_host l _

theorem around_tearDown (l : Live) (session : Session) : Around l (l.tearDown session) := by
  cases session with
  | server s => exact around_host l _
  | program pid => exact (around_host l _).trans (around_gather _ pid)

/-- To carry out a plan changes nothing in the calls, whatever the answers are. -/
theorem around_follow (plan : Plan α) (child : Option Nat) (l : Live) :
    Around l (l.follow plan child).1 := by
  -- induction on the plan: each step either goes on from a later state or waits
  induction plan generalizing l child with
  | done a => exact .refl l
  | say line next ih => exact (around_say l line).trans (ih child _)
  | look p next ih => exact ih _ child l
  | bundle job next ih => exact (around_onDisk l job.run).trans (ih _ child _)
  | run c next ih =>
    cases child with
    | none =>
      simp only [follow]
      split
      next e _ => exact (around_launch l c).trans (ih _ none _)
      next pid _ => exact around_launch l c
    | some pid =>
      simp only [follow]
      split
      next child _ =>
        split
        next code _ => exact (around_gather l pid).trans (ih _ none _)
        next => exact around_gather l pid
      next => exact .refl l
  | launch c next ih => exact (around_launch l c).trans (ih _ child _)
  | listen s next ih => exact (around_listen l s).trans (ih _ child _)
  | await signal next ih =>
    simp only [follow]
    split
    next =>
      let l1 : Live := { l with signals := l.signals.erase signal }
      have noticed : Around l l1 := ⟨rfl, rfl, rfl, [], rfl⟩
      exact noticed.trans (ih child l1)
    next => exact .refl l

theorem around_proceed (l : Live) (work : Work) : Around l (l.proceed work).1 := by
  cases work with
  | building plan child =>
    have around := around_follow plan child l
    simp only [proceed]
    split <;> simp_all
  | serving plan child =>
    have around := around_follow plan child l
    simp only [proceed]
    split <;> simp_all

theorem onDisk_disk (l : Live) (task : Task ε α) :
    (l.onDisk task).2.host.disk = (task l.host.disk).2 :=
  rfl

/-- A need is answered truly on some disk, and the disk is as it is after the answer. -/
theorem reply_spec (l : Live) (need : Need) : Around l (l.reply need).1 ∧
    ∃ time d, need.IsTrue (l.reply need).2 d ∧
      (l.reply need).1.host.disk = need.disk l.strategy.kind time d := by
  cases need with
  | isThere p => exact ⟨.refl l, 0, l.host.disk, rfl, rfl⟩
  | stopped session => exact ⟨around_tearDown l session, 0, _, trivial, rfl⟩
  | kept p outcome message =>
    simp only [reply, Need.disk, Need.IsTrue, true_and]
    exact ⟨around_onDisk l _, _, l.host.disk, onDisk_disk l _⟩
  | _ => exact ⟨.refl l, 0, l.host.disk, trivial, rfl⟩

/-- What has come about in the relation is what the calls of a supervisor at work have come to. -/
structure Shows (l : Live) (w : World) : Prop where
  supervisor : w.supervisor = l.supervisor
  disk : w.disk = l.host.disk
  calls : ∀ c ∈ l.calls, w.calls c.id = some c.stage
  unused : ∀ id, l.nextCall ≤ id → w.calls id = none

/-- A supervisor at work that has come to what can come about in the relation. Only a call that
asks its strategy waits for the work of it. -/
structure IsAtWork (l : Live) : Prop where
  asked : ∀ c ∈ l.calls, c.work.isSome → (c.stage.need l.supervisor).IsWork
  reached : ∃ w, World.Reachable l.strategy.kind w ∧ l.Shows w

theorem Around.need (around : Around l l') (stage : Stage) :
    stage.need l'.supervisor = stage.need l.supervisor := by
  obtain ⟨lines, same⟩ := around.supervisor
  rw [same]
  exact stage.need_log l.supervisor _

/-- What goes on around the calls is what other programs may do. -/
theorem Around.shows (around : Around l l') (w : World) (shows : l.Shows w) (disk : Disk) :
    ∃ w', World.Step l.strategy.kind w w' ∧ w'.supervisor = l'.supervisor ∧ w'.disk = disk ∧
      w'.calls = w.calls := by
  obtain ⟨lines, same⟩ := around.supervisor
  refine ⟨w.written (l.supervisor.log.lines lines) disk, .other w _ disk, ?_, rfl, rfl⟩
  rw [same, ← shows.supervisor]
  rfl

theorem IsAtWork.around (atWork : l.IsAtWork) (around : Around l l') : l'.IsAtWork := by
  obtain ⟨w, reached, shows⟩ := atWork.reached
  obtain ⟨w', step, supervisor, disk, calls⟩ := around.shows w shows l'.host.disk
  refine ⟨fun c listed works => ?_, w', ?_, supervisor, disk, fun c listed => ?_,
    fun id above => ?_⟩
  · rw [around.need]
    exact atWork.asked c (around.calls ▸ listed) works
  · rw [around.strategy]
    exact .next w w' reached step
  · rw [calls]
    exact shows.calls c (around.calls ▸ listed)
  · rw [calls]
    exact shows.unused id (around.nextCall ▸ above)

theorem mem_setCall (l : Live) (c b : Call) (listed : b ∈ (l.setCall c).calls) :
    b = c ∨ (b ∈ l.calls ∧ b.id ≠ c.id) := by
  obtain ⟨a, member, same⟩ := List.mem_map.mp listed
  split at same
  next => exact .inl same.symm
  next apart => exact .inr ⟨same ▸ member, same ▸ apart⟩

/-- A call that has noted how far the strategy has come waits where it was. -/
theorem IsAtWork.noted (atWork : l.IsAtWork) (c : Call) (listed : c ∈ l.calls) (work : Option Work)
    (asks : (c.stage.need l.supervisor).IsWork) : (l.setCall { c with work }).IsAtWork := by
  obtain ⟨w, reached, shows⟩ := atWork.reached
  refine ⟨fun b member works => ?_, w, reached, shows.supervisor, shows.disk, fun b member => ?_,
    shows.unused⟩
  · rcases mem_setCall l _ b member with rfl | ⟨old, -⟩
    · exact asks
    · exact atWork.asked b old works
  · rcases mem_setCall l _ b member with rfl | ⟨old, -⟩
    · exact shows.calls c listed
    · exact shows.calls b old

/-- A stage of a call is a turn of it, after what went on while it was answered. -/
theorem IsAtWork.turned (atWork : l.IsAtWork) (c : Call) (listed : c ∈ l.calls) (o : Outside)
    (time : Int) (d : Disk) (around : Around l l')
    (truly : (c.stage.need l.supervisor).IsTrue o d)
    (disk : l'.host.disk = (c.stage.need l.supervisor).disk l.strategy.kind time d)
    (supervisor : Supervisor) (next : Stage)
    (moved : c.stage.advance c.id o l'.supervisor = some (supervisor, next)) :
    ({ l' with supervisor }.setCall { c with stage := next, work := none }).IsAtWork := by
  obtain ⟨w, reached, shows⟩ := atWork.reached
  obtain ⟨w1, written, same, changed, calls⟩ := around.shows w shows d
  have need : c.stage.need w1.supervisor = c.stage.need l.supervisor := by
    rw [same, around.need]
  have under : w1.calls c.id = some c.stage := by
    rw [calls]
    exact shows.calls c listed
  -- the relation first does what went on around the call, and then the turn
  let w2 := w1.turned l.strategy.kind c.id c.stage o time supervisor next
  have turn : World.Step l.strategy.kind w1 w2 :=
    .turn w1 c.id c.stage next o time supervisor under (by rw [need, changed]; exact truly)
      (by rw [same]; exact moved)
  refine ⟨fun b member works => ?_, w2, ?_, rfl, ?_, fun b member => ?_, fun id above => ?_⟩
  · rcases mem_setCall _ _ b member with rfl | ⟨old, -⟩
    · cases works
    · -- the strategy is asked the same whatever the supervisor has become
      have asks := atWork.asked b (around.calls ▸ old) works
      exact (b.stage.need_of_isWork l.supervisor supervisor asks) ▸ asks
  · change World.Reachable l'.strategy.kind w2
    rw [around.strategy]
    exact .next w1 w2 (.next w w1 reached written) turn
  · change (c.stage.need w1.supervisor).disk l.strategy.kind time w1.disk = l'.host.disk
    rw [need, changed, disk]
  · rcases mem_setCall _ _ b member with rfl | ⟨old, apart⟩
    · simp [w2, World.turned]
    · have kept := shows.calls b (around.calls ▸ old)
      simpa [w2, World.turned, apart, calls] using kept
  · have unused := shows.unused id (around.nextCall ▸ above)
    have apart : id ≠ c.id := by
      rintro rfl
      rw [shows.calls c listed] at unused
      cases unused
    simpa [w2, World.turned, apart, calls] using unused

theorem isWork_of_workFor (atWork : l.IsAtWork) (c : Call) (listed : c ∈ l.calls) (work : Work)
    (begun : l.workFor c (c.stage.need l.supervisor) = some work) :
    (c.stage.need l.supervisor).IsWork := by
  cases waits : c.work with
  | some earlier => exact atWork.asked c listed (by rw [waits]; rfl)
  | none =>
    cases need : c.stage.need l.supervisor with
    | built p => exact trivial
    | served p => exact trivial
    | _ => simp [workFor, waits, need] at begun

/-- One stage of a call, or none while it has to wait. -/
theorem IsAtWork.stepCall (atWork : l.IsAtWork) (id : Nat) :
    (∀ l', (l.stepCall id).1 = some l' → l'.IsAtWork) ∧ (l.stepCall id).2.IsAtWork := by
  have waits {l' : Live} (later : l'.IsAtWork) (r : Option Live × Live) (same : r = (none, l')) :
      (∀ l', r.1 = some l' → l'.IsAtWork) ∧ r.2.IsAtWork := by
    subst same
    exact ⟨fun l' stepped => (nomatch stepped), later⟩
  have goes {l' : Live} (later : l'.IsAtWork) (r : Option Live × Live) (same : r = (some l', l')) :
      (∀ l', r.1 = some l' → l'.IsAtWork) ∧ r.2.IsAtWork := by
    subst same
    exact ⟨fun l' stepped => Option.some.inj stepped ▸ later, later⟩
  cases found : l.calls.find? (·.id = id) with
  | none => exact waits atWork _ (by simp only [Live.stepCall, found])
  | some c =>
    have listed : c ∈ l.calls := List.mem_of_find?_eq_some found
    have same : c.id = id := by simpa using List.find?_some found
    subst same
    cases begun : l.workFor c (c.stage.need l.supervisor) with
    | some work =>
      have asks := isWork_of_workFor atWork c listed work begun
      have around := around_proceed l work
      rcases answered : l.proceed work with ⟨l1, _ | o, rest⟩
      · rw [answered] at around
        have later := (atWork.around around).noted c (around.calls ▸ listed) (some rest)
          (by rw [around.need]; exact asks)
        exact waits later _ (by simp only [Live.stepCall, found, begun, answered])
      · rw [answered] at around
        cases moved : c.stage.advance c.id o l1.supervisor with
        | none =>
          exact waits (atWork.around around) _
            (by simp only [Live.stepCall, found, begun, answered, moved])
        | some reached =>
          have turned := atWork.turned c listed o 0 l1.host.disk around (asks.isTrue _ o _)
            (asks.disk _ _ 0 _).symm reached.1 reached.2 moved
          exact goes turned _ (by simp only [Live.stepCall, found, begun, answered, moved])
    | none =>
      obtain ⟨around, time, d, truly, disk⟩ := l.reply_spec (c.stage.need l.supervisor)
      rcases answered : l.reply (c.stage.need l.supervisor) with ⟨l1, o⟩
      rw [answered] at around truly disk
      cases moved : c.stage.advance c.id o l1.supervisor with
      | none =>
        exact waits (atWork.around around) _
          (by simp only [Live.stepCall, found, begun, answered, moved])
      | some reached =>
        have turned := atWork.turned c listed o time d around truly disk reached.1 reached.2 moved
        exact goes turned _ (by simp only [Live.stepCall, found, begun, answered, moved])

theorem IsAtWork.advance (id fuel : Nat) (l : Live) (atWork : l.IsAtWork) :
    (l.advance id fuel).IsAtWork := by
  induction fuel generalizing l with
  | zero => exact atWork
  | succ fuel ih =>
    obtain ⟨goes, waits⟩ := atWork.stepCall id
    unfold Live.advance
    split
    next l' rest equal => exact ih l' (goes l' (by rw [equal]))
    next l' equal => rw [equal] at waits; exact waits

theorem IsAtWork.round (atWork : l.IsAtWork) (except : Option Nat) : (l.round except).IsAtWork := by
  unfold Live.round
  have gathered := atWork.around (around_foldl gather around_gather l.watched l)
  generalize l.watched.foldl gather l = l1 at gathered ⊢
  simp only
  generalize l1.calls.filter _ = calls
  induction calls generalizing l1 with
  | nil => exact gathered
  | cons c rest ih => exact ih _ (IsAtWork.advance c.id stageLimit l1 gathered)

theorem IsAtWork.pass (atWork : l.IsAtWork) (passed : l.pass? = some l') : l'.IsAtWork := by
  obtain ⟨host, -, rfl⟩ := Option.map_eq_some_iff.mp passed
  exact atWork.around (around_host l host)

/-- A call that begins is numbered as none before it. -/
theorem IsAtWork.begin (atWork : l.IsAtWork) (r : Request) : (l.begin r).2.IsAtWork := by
  obtain ⟨w, reached, shows⟩ := atWork.reached
  -- no call has had the next number
  have unused := shows.unused l.nextCall (Nat.le_refl _)
  refine ⟨fun c member works => ?_, w.begin l.nextCall r,
    .next w _ reached (.begin w l.nextCall r unused), shows.supervisor, shows.disk,
    fun c member => ?_, fun id above => ?_⟩
  · rcases List.mem_append.mp member with old | new
    · exact atWork.asked c old works
    · cases List.mem_singleton.mp new
      cases works
  · rcases List.mem_append.mp member with old | new
    · have kept := shows.calls c old
      have apart : c.id ≠ l.nextCall := by
        intro same
        rw [same, unused] at kept
        cases kept
      simpa [World.begin, apart] using kept
    · cases List.mem_singleton.mp new
      simp [World.begin]
  · have apart : id ≠ l.nextCall := Nat.ne_of_gt above
    simpa [World.begin, apart] using shows.unused id (Nat.le_of_succ_le above)

theorem IsAtWork.forget (atWork : l.IsAtWork) (id : Nat) : (l.forget id).IsAtWork := by
  obtain ⟨w, reached, shows⟩ := atWork.reached
  have kept (c : Call) (member : c ∈ (l.forget id).calls) : c ∈ l.calls :=
    (List.mem_filter.mp member).1
  exact ⟨fun c member => atWork.asked c (kept c member), w, reached, shows.supervisor, shows.disk,
    fun c member => shows.calls c (kept c member), shows.unused⟩

theorem IsAtWork.turn (atWork : l.IsAtWork) (id : Nat) : (l.turn id).2.IsAtWork := by
  unfold Live.turn
  have before : (if l.isAtSlow id then l.round (some id) else l).IsAtWork := by
    split
    next => exact atWork.round (some id)
    next => exact atWork
  generalize (if l.isAtSlow id then l.round (some id) else l) = l1 at before ⊢
  obtain ⟨goes, waits⟩ := before.stepCall id
  simp only
  split
  next l2 _ equal => exact goes l2 (by rw [equal])
  next l2 equal =>
    rw [equal] at waits
    have others := waits.round (some id)
    obtain ⟨goes, waits⟩ := others.stepCall id
    split
    next l3 _ equal => exact goes l3 (by rw [equal])
    next l3 equal =>
      rw [equal] at waits
      split
      next l4 passed => exact waits.pass passed
      next => exact waits

theorem IsAtWork.finish (id fuel : Nat) (l : Live) (atWork : l.IsAtWork) :
    (l.finish id fuel).IsAtWork := by
  induction fuel generalizing l with
  | zero => exact atWork
  | succ fuel ih =>
    have turned := atWork.turn id
    unfold Live.finish
    split
    next => exact atWork
    next =>
      split
      next l' equal => rw [equal] at turned; exact ih l' turned
      next l' equal => rw [equal] at turned; exact turned

theorem IsAtWork.call (atWork : l.IsAtWork) (r : Request) : (l.call r).2.IsAtWork := by
  simp only [Live.call]
  generalize patience = fuel
  exact (IsAtWork.finish _ fuel _ (atWork.begin r)).forget _

theorem IsAtWork.passUntil (holds : Live → Bool) (fuel : Nat) (l : Live) (atWork : l.IsAtWork) :
    (l.passUntil holds fuel).IsAtWork := by
  induction fuel generalizing l with
  | zero => exact atWork
  | succ fuel ih =>
    have others := atWork.round none
    unfold Live.passUntil
    simp only
    split
    next => exact others
    next =>
      split
      next l' passed => exact ih l' (others.pass passed)
      next => exact others

theorem IsAtWork.waitUntil (atWork : l.IsAtWork) (holds : Live → Bool) :
    (l.waitUntil holds).IsAtWork := by
  unfold Live.waitUntil
  split
  next => exact atWork
  next => exact IsAtWork.passUntil holds patience l atWork

theorem isAtWork_start (host : Host) (strategy : Strategy) (log : Log) :
    IsAtWork { host, strategy, supervisor := { log } } := by
  have nobody (c : Call) : c ∉ ([] : List Call) := List.not_mem_nil
  exact ⟨fun c listed => absurd listed (nobody c), World.start log host.disk, .start log host.disk,
    rfl, rfl, fun c listed => absurd listed (nobody c), fun id _ => rfl⟩

/-- Whatever a supervisor at work was asked and whatever its strategy did, the status is running
exactly if a session is stored while nobody has the lock on it. -/
theorem IsAtWork.isSettled (atWork : l.IsAtWork) (unheld : l.supervisor.holder = none) :
    l.supervisor.IsSettled := by
  obtain ⟨w, reached, shows⟩ := atWork.reached
  rw [← shows.supervisor] at unheld ⊢
  exact reached.isSettled unheld

end Live

end Workbench
