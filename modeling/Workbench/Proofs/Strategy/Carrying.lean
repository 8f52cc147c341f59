import Workbench.Supervisor.Live

/-! What comes of a plan when it is carried out. Nothing is assumed of what the host answers, which
may be another one each time it is asked. Only allowed programs are ever started, each in the
directory of its command; and what a supervisor at work does with a plan is to carry it out. -/
namespace Workbench

/-- Something that was done to carry out a plan, or that came of it. -/
inductive Deed where
  /-- A command was not started. -/
  | refused (c : Command) (why : Error)
  /-- A command was started as a program. -/
  | started (c : Command) (child : Child)
  /-- The program that was waited for has ended. -/
  | ended (how : Shell.Ending)
  /-- How the program ended that was waited for could not be found out. -/
  | lost (why : Error)

namespace Deed

def command? : Deed → Option Command
  | .started c _ => some c
  | _ => none

def pid? : Deed → Option Nat
  | .started _ child => some child.pid
  | _ => none

end Deed

/-- A command is on the list, and was started in its directory as it was found on some disk. -/
def Command.StartsAs (c : Command) (child : Child) : Prop :=
  c.isAllowed = true ∧
    ∃ d : Disk, ∀ p, c.workDir = some p → d.locate true p = .ok child.script.here.dir

/-- A plan that is being carried out, and the program that it waits for. -/
structure Errand (α : Type) where
  plan : Plan α
  child : Option Nat := none

namespace Errand

/-- What happens while a plan is carried out up to a last state. Every answer is left open, but that
it is the host that starts programs, and tells how they ended. -/
inductive Carried (last : Errand α) : Errand α → List Deed → Prop where
  | pause : Carried last last []
  | done (a : α) (child : Option Nat) (ended : last = ⟨.done a, none⟩) :
      Carried last ⟨.done a, child⟩ []
  | say (line : String) (next : Plan α) (child : Option Nat) (deeds : List Deed)
      (rest : Carried last ⟨next, child⟩ deeds) : Carried last ⟨.say line next, child⟩ deeds
  | look (p : Path) (next : Bool → Plan α) (there : Bool) (child : Option Nat) (deeds : List Deed)
      (rest : Carried last ⟨next there, child⟩ deeds) : Carried last ⟨.look p next, child⟩ deeds
  | bundle (job : Bundle.Job) (next : Outcome Bundle.Report → Plan α)
      (report : Outcome Bundle.Report) (child : Option Nat) (deeds : List Deed)
      (rest : Carried last ⟨next report, child⟩ deeds) :
      Carried last ⟨.bundle job next, child⟩ deeds
  | listen (s : StaticServer) (next : Outcome (SocketAddress × Session) → Plan α)
      (bound : Outcome (SocketAddress × Session)) (child : Option Nat) (deeds : List Deed)
      (rest : Carried last ⟨next bound, child⟩ deeds) : Carried last ⟨.listen s next, child⟩ deeds
  | await (signal : String) (next : Plan α) (child : Option Nat) (deeds : List Deed)
      (rest : Carried last ⟨next, child⟩ deeds) : Carried last ⟨.await signal next, child⟩ deeds
  | refuse (c : Command) (next : Outcome Int → Plan α) (host host' : Host) (why : Error)
      (deeds : List Deed) (asked : host.start c = (.error why, host'))
      (rest : Carried last ⟨next (.error why), none⟩ deeds) :
      Carried last ⟨.run c next, none⟩ (.refused c why :: deeds)
  | start (c : Command) (next : Outcome Int → Plan α) (host host' : Host) (started : Child)
      (deeds : List Deed) (asked : host.start c = (.ok started.pid, host'))
      (new : host'.children = host.children ++ [started])
      (rest : Carried last ⟨.run c next, some started.pid⟩ deeds) :
      Carried last ⟨.run c next, none⟩ (.started c started :: deeds)
  | finish (c : Command) (next : Outcome Int → Plan α) (pid : Nat) (child : Child)
      (how : Shell.Ending) (code : Int) (deeds : List Deed) (ended : child.ending = some how)
      (told : child.code? = some code) (rest : Carried last ⟨next (.ok code), none⟩ deeds) :
      Carried last ⟨.run c next, some pid⟩ (.ended how :: deeds)
  | lose (c : Command) (next : Outcome Int → Plan α) (pid : Nat) (why : Error)
      (deeds : List Deed) (rest : Carried last ⟨next (.error why), none⟩ deeds) :
      Carried last ⟨.run c next, some pid⟩ (.lost why :: deeds)
  | refuseLaunch (c : Command) (next : Outcome Session → Plan α) (host host' : Host) (why : Error)
      (child : Option Nat) (deeds : List Deed) (asked : host.start c = (.error why, host'))
      (rest : Carried last ⟨next (.error why), child⟩ deeds) :
      Carried last ⟨.launch c next, child⟩ (.refused c why :: deeds)
  | launch (c : Command) (next : Outcome Session → Plan α) (host host' : Host) (started : Child)
      (child : Option Nat) (deeds : List Deed) (asked : host.start c = (.ok started.pid, host'))
      (new : host'.children = host.children ++ [started])
      (rest : Carried last ⟨next (.ok (.program started.pid)), child⟩ deeds) :
      Carried last ⟨.launch c next, child⟩ (.started c started :: deeds)

end Errand

namespace Shell.Script

@[simp]
theorem emit_here (s : Script) (d : Disk) (outlet : Outlet) (bytes : List UInt8) :
    (s.emit d outlet bytes).1.here = s.here := by
  unfold emit
  split
  · rfl
  · split <;> rfl

/-- A script that is entered runs in the directory of the setting that it is entered in. -/
theorem enter_dir (s : Script) (d : Disk) (image : Image) (w : Wiring) :
    (s.enter d image w).1.here.dir = s.here.dir := by
  unfold enter
  dsimp only
  repeat' split
  all_goals simp

end Shell.Script

namespace Host

theorem prepare_eq_ok {h : Host} {c : Command} {child : Child}
    (prepared : h.prepare c = .ok child) : h.directoryOf c = .ok child.script.here.dir := by
  unfold prepare at prepared
  cases found : h.directoryOf c with
  | error fault => rw [found] at prepared; cases prepared
  | ok dir =>
    cases known : h.table.image h.disk (c.program :: c.args) with
    | error fault => rw [found, known] at prepared; cases prepared
    | ok image =>
      rw [found, known] at prepared
      dsimp only [bind, Except.bind, pure, Except.pure] at prepared
      rw [← Except.ok.inj prepared, Shell.Script.enter_dir]

theorem locate_of_directoryOf {h : Host} {c : Command} {dir : Location} {p : Path}
    (found : h.directoryOf c = .ok dir) (inside : c.workDir = some p) :
    h.disk.locate true p = .ok dir := by
  unfold directoryOf at found
  rw [inside] at found
  dsimp only at found
  cases located : h.disk.locate true p with
  | error fault => rw [located] at found; cases found
  | ok l =>
    rw [located] at found
    dsimp only [bind, Except.bind] at found
    split at found <;> cases found
    rfl

/-- What is started is on the list, and is the newest program of the host. -/
theorem start_eq_ok {h h' : Host} {c : Command} {pid : Nat} (asked : h.start c = (.ok pid, h')) :
    c.isAllowed = true ∧ ∃ child, child.pid = pid ∧ h'.children = h.children ++ [child] ∧
      h.prepare c = .ok child := by
  unfold start at asked
  split at asked
  · cases asked
  next allowed =>
    split at asked <;> cases asked
    next child prepared => exact ⟨by simpa using allowed, child, rfl, rfl, prepared⟩

/-- A command that was started is on the list, and its program runs where the command says. -/
theorem startsAs_of_start {h h' : Host} {c : Command} {child : Child}
    (asked : h.start c = (.ok child.pid, h')) (new : h'.children = h.children ++ [child]) :
    c.StartsAs child := by
  obtain ⟨allowed, started, -, children, prepared⟩ := start_eq_ok asked
  have same : started = child := by
    rw [children] at new
    exact List.singleton_inj.mp (List.append_cancel_left new)
  subst same
  exact ⟨allowed, h.disk, fun p inside => locate_of_directoryOf (prepare_eq_ok prepared) inside⟩

end Host

namespace Errand

variable {last errand : Errand α} {deeds : List Deed}

/-- Whatever a plan does, only allowed programs are started, each in the directory of its
command. -/
theorem Carried.startsAs (carried : Carried last errand deeds) (c : Command) (child : Child)
    (listed : .started c child ∈ deeds) : c.StartsAs child := by
  induction carried with
  | pause | done => cases listed
  | say _ _ _ _ _ ih | look _ _ _ _ _ _ ih | bundle _ _ _ _ _ _ ih | listen _ _ _ _ _ _ ih
  | await _ _ _ _ _ ih => exact ih listed
  | refuse _ _ _ _ _ _ _ _ ih | refuseLaunch _ _ _ _ _ _ _ _ _ ih
  | finish _ _ _ _ _ _ _ _ _ _ ih | lose _ _ _ _ _ _ ih =>
    exact ih (by simpa using listed)
  | start c' next host host' started deeds asked new rest ih
  | launch c' next host host' started waits deeds asked new rest ih =>
    rcases List.mem_cons.mp listed with first | later
    · cases first
      exact Host.startsAs_of_start asked new
    · exact ih later

theorem Carried.trans {middle : Errand α} {more : List Deed} (front : Carried middle errand deeds)
    (back : Carried last middle more) : Carried last errand (deeds ++ more) := by
  induction front with
  | pause => exact back
  | done a child ended =>
    subst ended
    cases back with
    | pause => exact .done a child rfl
    | done _ _ ended => exact .done a child ended
  | say line next child deeds rest ih => exact .say line next child _ ih
  | look p next there child deeds rest ih => exact .look p next there child _ ih
  | bundle job next report child deeds rest ih => exact .bundle job next report child _ ih
  | listen s next bound child deeds rest ih => exact .listen s next bound child _ ih
  | await signal next child deeds rest ih => exact .await signal next child _ ih
  | refuse c next host host' why deeds asked rest ih =>
    exact .refuse c next host host' why _ asked ih
  | start c next host host' started deeds asked new rest ih =>
    exact .start c next host host' started _ asked new ih
  | finish c next pid child how code deeds ended told rest ih =>
    exact .finish c next pid child how code _ ended told ih
  | lose c next pid why deeds rest ih => exact .lose c next pid why _ ih
  | refuseLaunch c next host host' why child deeds asked rest ih =>
    exact .refuseLaunch c next host host' why child _ asked ih
  | launch c next host host' started child deeds asked new rest ih =>
    exact .launch c next host host' started child _ asked new ih

end Errand

namespace Live

theorem gather_watched (l : Live) (pid : Nat) : (l.gather pid).watched = l.watched := by
  have said (lines : List String) (l : Live) : (lines.foldl say l).watched = l.watched := by
    induction lines generalizing l with
    | nil => rfl
    | cons line rest ih => exact ih (l.say line)
  exact said _ _

/-- A supervisor at work carries out a plan, and takes down each program that it starts. -/
theorem follow_carried (plan : Plan α) (child : Option Nat) (l : Live) :
    ∃ deeds, Errand.Carried ⟨(l.follow plan child).2.1, (l.follow plan child).2.2⟩ ⟨plan, child⟩
        deeds ∧
      (l.follow plan child).1.watched = l.watched ++ deeds.filterMap Deed.pid? := by
  induction plan generalizing l child with
  | done a => exact ⟨[], .done a child rfl, by simp [follow]⟩
  | say line next ih =>
    obtain ⟨deeds, carried, watched⟩ := ih child (l.say line)
    exact ⟨deeds, .say line next child deeds carried, watched⟩
  | look p next ih =>
    obtain ⟨deeds, carried, watched⟩ := ih (l.host.disk.isThere p) child l
    exact ⟨deeds, .look p next _ child deeds carried, watched⟩
  | bundle job next ih =>
    obtain ⟨deeds, carried, watched⟩ := ih (l.onDisk job.run).1 child (l.onDisk job.run).2
    exact ⟨deeds, .bundle job next _ child deeds carried, watched⟩
  | listen s next ih =>
    obtain ⟨deeds, carried, watched⟩ := ih (l.listen s).1 child (l.listen s).2
    exact ⟨deeds, .listen s next _ child deeds carried, watched⟩
  | await signal next ih =>
    simp only [follow]
    split
    next =>
      obtain ⟨deeds, carried, watched⟩ := ih child { l with signals := l.signals.erase signal }
      exact ⟨deeds, .await signal next child deeds carried, watched⟩
    next => exact ⟨[], .pause, by simp⟩
  | run c next ih =>
    cases child with
    | none =>
      simp only [follow, launch]
      rcases asked : l.host.start c with ⟨why | pid, host⟩
      · obtain ⟨deeds, carried, watched⟩ := ih (.error why) none { l with host }
        exact ⟨_, .refuse c next l.host host why deeds asked carried, watched⟩
      · obtain ⟨-, started, rfl, new, -⟩ := Host.start_eq_ok asked
        exact ⟨_, .start c next l.host host started [] asked new .pause, rfl⟩
    | some pid =>
      simp only [follow]
      split
      next child _ =>
        split
        next code told =>
          obtain ⟨how, ended, -⟩ := Option.map_eq_some_iff.mp told
          obtain ⟨deeds, carried, watched⟩ := ih (.ok code) none (l.gather pid)
          refine ⟨_, .finish c next pid child how code deeds ended told carried, ?_⟩
          rw [watched, gather_watched]
          rfl
        next => exact ⟨[], .pause, by simp [gather_watched]⟩
      next => exact ⟨[], .pause, by simp⟩
  | launch c next ih =>
    simp only [follow, launch]
    rcases asked : l.host.start c with ⟨why | pid, host⟩
    · obtain ⟨deeds, carried, watched⟩ := ih (.error why) child { l with host }
      exact ⟨_, .refuseLaunch c next l.host host why child deeds asked carried, watched⟩
    · obtain ⟨-, started, rfl, new, -⟩ := Host.start_eq_ok asked
      obtain ⟨deeds, carried, watched⟩ := ih (.ok (.program started.pid)) child
        { l with host, watched := l.watched ++ [started.pid] }
      refine ⟨_, .launch c next l.host host started child deeds asked new carried, ?_⟩
      refine watched.trans ?_
      simp [Deed.pid?]

end Live

end Workbench
