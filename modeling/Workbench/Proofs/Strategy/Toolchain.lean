import Workbench.Proofs.Strategy.Carrying
import Workbench.Strategy.Basic

/-! What a toolchain does to build a project, whatever becomes of its commands: the second command
is started only after the first has ended well, and the build succeeds exactly if both have. -/
namespace Workbench.Strategy

/-- What has happened of one of the commands of a toolchain, and whether it ended well once it has
ended. -/
inductive Course (p : Project) (words : List String) : List Deed → Option Bool → Prop where
  | ahead : Course p words [] none
  | nothing (empty : words = []) : Course p words [] (some false)
  | refused (c : Command) (why : Error) (meant : Command.ofWords words = .ok c) :
      Course p words [.refused (c.inDir p.path) why] (some false)
  | atWork (c : Command) (child : Child) (meant : Command.ofWords words = .ok c) :
      Course p words [.started (c.inDir p.path) child] none
  | ended (c : Command) (child : Child) (how : Shell.Ending)
      (meant : Command.ofWords words = .ok c) :
      Course p words [.started (c.inDir p.path) child, .ended how] (some (how = .exited 0))
  | lost (c : Command) (child : Child) (why : Error) (meant : Command.ofWords words = .ok c) :
      Course p words [.started (c.inDir p.path) child, .lost why] (some false)

/-- What has happened of a build, and its outcome once it has one. -/
inductive Built (commands : ToolchainSettings) (p : Project) :
    List Deed → Option Bool → Prop where
  | installing (deeds : List Deed) (outcome : Option Bool)
      (course : Course p commands.install deeds outcome) (short : outcome ≠ some true) :
      Built commands p deeds outcome
  | building (first second : List Deed) (outcome : Option Bool)
      (installed : Course p commands.install first (some true))
      (course : Course p commands.build second outcome) :
      Built commands p (first ++ second) outcome

variable {commands : ToolchainSettings} {p : Project} {deeds : List Deed}

/-- The code of a program is zero exactly if it ended by itself and said so. -/
theorem code_eq_zero_iff (child : Child) (how : Shell.Ending) (code : Int)
    (ended : child.ending = some how) (told : child.code? = some code) :
    code = 0 ↔ how = .exited 0 := by
  rw [Child.code?, ended] at told
  cases how with
  | exited n =>
    cases told
    simp
  | killed =>
    cases told
    simp

/-- What is said of a command once the host has answered. -/
def conclude (c : Command) : Outcome Int → Plan Bool
  | .ok code =>
    if code = 0 then .done true
    else .say ("`" ++ c.line ++ "` exited with code " ++ Text.decimalInt code) (.done false)
  | .error e => .say ("Error: " ++ e.message) (.done false)

theorem commandPlan_eq (words : List String) (c : Command) (meant : Command.ofWords words = .ok c) :
    commandPlan words p = .say ("$ " ++ c.line) (.run (c.inDir p.path) (conclude c)) := by
  rw [commandPlan, meant]
  refine congrArg (Plan.say _) (congrArg (Plan.run _) ?_)
  funext answer
  cases answer with
  | error e => rfl
  | ok code =>
    change (if code = 0 then _ else _) = if code = 0 then _ else _
    split <;> rfl

theorem toolchainPlan_eq : toolchainPlan commands p =
    .say "Starting build process..." (.say divider ((commandPlan commands.install p).bind fun
      | false => .say "Dependency install failed, skipping build" (.done false)
      | true => (commandPlan commands.build p).bind fun
        | false => .say "Build failed" (.done false)
        | true => .say divider (.say "Build completed successfully!" (.done true)))) := by
  refine congrArg (Plan.say _) (congrArg (Plan.say _) ?_)
  change Plan.bind (commandPlan commands.install p) _ = _
  refine congrArg (Plan.bind _) ?_
  funext installed
  cases installed with
  | false => rfl
  | true =>
    change Plan.bind (commandPlan commands.build p) _ = _
    refine congrArg (Plan.bind _) ?_
    funext built
    cases built <;> rfl

variable {last : Errand α}

/-- Whether a program was run and said that it ended well. -/
def isWell : Outcome Int → Bool
  | .ok code => code = 0
  | .error _ => false

/-- How far a plan has come that runs a command and then goes on with what came of it. -/
inductive Stands (last : Errand α) (p : Project) (words : List String) (next : Bool → Plan α) :
    List Deed → Prop where
  | within (deeds : List Deed) (outcome : Option Bool) (course : Course p words deeds outcome)
      (short : outcome ≠ some true) (underway : ∀ a, last.plan ≠ .done a) :
      Stands last p words next deeds
  | beyond (first second : List Deed) (well : Bool) (course : Course p words first (some well))
      (rest : Errand.Carried last ⟨next well, none⟩ second) :
      Stands last p words next (first ++ second)

/-- Once the host has answered, nothing more is done for a command. -/
theorem stands_of_conclude (words : List String) (c : Command) (answer : Outcome Int)
    (next : Bool → Plan α) (first : List Deed)
    (course : Course p words first (some (isWell answer)))
    (carried : Errand.Carried last ⟨(conclude c answer).bind next, none⟩ deeds) :
    Stands last p words next (first ++ deeds) := by
  cases well : isWell answer with
  | true =>
    have zero : answer = .ok 0 := by
      cases answer with
      | error e => cases well
      | ok code => exact congrArg _ (of_decide_eq_true well)
    subst zero
    exact .beyond first deeds true course carried
  | false =>
    obtain ⟨line, said⟩ : ∃ line, conclude c answer = .say line (.done false) := by
      cases answer with
      | error e => exact ⟨_, rfl⟩
      | ok code => exact ⟨_, if_neg (of_decide_eq_false well)⟩
    rw [said] at carried
    rw [well] at course
    cases carried with
    | pause =>
      rw [List.append_nil]
      exact .within first (some false) course nofun fun _ => nofun
    | say _ _ _ _ rest => exact .beyond first deeds false course rest

theorem stands_of_commandPlan (words : List String) (next : Bool → Plan α)
    (carried : Errand.Carried last ⟨(commandPlan words p).bind next, none⟩ deeds) :
    Stands last p words next deeds := by
  cases meant : Command.ofWords words with
  | error e =>
    have empty : words = [] := by
      cases words with
      | nil => rfl
      | cons program args => cases meant
    subst empty
    cases carried with
    | pause => exact .within [] none .ahead nofun fun _ => nofun
    | say _ _ _ _ rest => exact .beyond [] deeds false (.nothing rfl) rest
  | ok c =>
    rw [commandPlan_eq words c meant] at carried
    cases carried with
    | pause => exact .within [] none .ahead nofun fun _ => nofun
    | say _ _ _ _ asked =>
      cases asked with
      | pause => exact .within [] none .ahead nofun fun _ => nofun
      | refuse _ _ host host' why deeds asked rest =>
        exact stands_of_conclude words c (.error why) next _ (.refused c why meant) rest
      | start _ _ host host' child deeds asked new waited =>
        cases waited with
        | pause => exact .within _ none (.atWork c child meant) nofun fun _ => nofun
        | finish _ _ _ child' how code deeds ended told rest =>
          have course := Course.ended (p := p) c child how meant
          have same : isWell (.ok code) = decide (how = .exited 0) :=
            decide_eq_decide.mpr (code_eq_zero_iff child' how code ended told)
          rw [← same] at course
          exact stands_of_conclude words c (.ok code) next _ course rest
        | lose _ _ _ why deeds rest =>
          exact stands_of_conclude words c (.error why) next _ (.lost c child why meant) rest

/-- Nothing is done any more once there is an outcome to be told of. -/
theorem over_of_carried {last : Errand Bool} (line : String) (result : Bool)
    (carried : Errand.Carried last ⟨.say line (.done result), none⟩ deeds) :
    deeds = [] ∧ ∀ result', last.plan = .done result' → some result = some result' := by
  cases carried with
  | pause => exact ⟨rfl, nofun⟩
  | say _ _ _ _ rest =>
    cases rest with
    | pause => exact ⟨rfl, fun _ same => congrArg some (Plan.done.inj same)⟩
    | done _ _ ended =>
      subst ended
      exact ⟨rfl, fun _ same => congrArg some (Plan.done.inj same)⟩

/-- The second command of a build takes its course only after the first has ended well, and a build
that is over has the outcome that they give. -/
theorem built_of_carried {last : Errand Bool}
    (carried : Errand.Carried last ⟨toolchainPlan commands p, none⟩ deeds) :
    ∃ outcome, Built commands p deeds outcome ∧
      ∀ result, last.plan = .done result → outcome = some result := by
  rw [toolchainPlan_eq] at carried
  cases carried with
  | pause => exact ⟨none, .installing [] none .ahead nofun, nofun⟩
  | say _ _ _ _ carried =>
  cases carried with
  | pause => exact ⟨none, .installing [] none .ahead nofun, nofun⟩
  | say _ _ _ _ carried =>
  cases stands_of_commandPlan commands.install _ carried with
  | within _ outcome course short underway =>
    exact ⟨outcome, .installing deeds outcome course short, fun _ ended => (underway _ ended).elim⟩
  | beyond first second well installed carried =>
  cases well with
  | false =>
    obtain ⟨rfl, ended⟩ := over_of_carried _ false carried
    rw [List.append_nil]
    exact ⟨some false, .installing first _ installed nofun, ended⟩
  | true =>
  cases stands_of_commandPlan commands.build _ carried with
  | within _ outcome course short underway =>
    exact ⟨outcome, .building first _ outcome installed course,
      fun _ ended => (underway _ ended).elim⟩
  | beyond second third well built carried =>
  have closed : third = [] ∧ ∀ result, last.plan = .done result → some well = some result := by
    cases well with
    | false => exact over_of_carried _ false carried
    | true =>
      cases carried with
      | pause => exact ⟨rfl, nofun⟩
      | say _ _ _ _ carried => exact over_of_carried _ true carried
  obtain ⟨rfl, ended⟩ := closed
  rw [List.append_nil]
  exact ⟨some well, .building first second _ installed built, ended⟩

/-- A command is started at most once, before anything else comes of it. -/
theorem Course.starts {words : List String} {outcome : Option Bool}
    (course : Course p words deeds outcome) :
    deeds.filterMap Deed.command? = [] ∨ ∃ c child rest, Command.ofWords words = .ok c ∧
      deeds = .started (c.inDir p.path) child :: rest ∧ rest.filterMap Deed.command? = [] := by
  cases course with
  | ahead | nothing | refused => exact .inl rfl
  | atWork c child meant | ended c child _ meant | lost c child _ meant =>
    exact .inr ⟨c, child, _, meant, rfl, rfl⟩

theorem Course.well {words : List String} (course : Course p words deeds (some true)) :
    ∃ c child, Command.ofWords words = .ok c ∧
      deeds = [.started (c.inDir p.path) child, .ended (.exited 0)] := by
  generalize same : some true = outcome at course
  cases course with
  | ahead | atWork | nothing | refused | lost => cases same
  | ended c child how meant =>
    have zero : how = .exited 0 := by simpa using same
    exact ⟨c, child, meant, by rw [zero]⟩

/-- The installing command is started first, and the building one only after it has ended well. -/
theorem Built.starts {outcome : Option Bool} (built : Built commands p deeds outcome) :
    deeds.filterMap Deed.command? = [] ∨ ∃ c, Command.ofWords commands.install = .ok c ∧
      (deeds.filterMap Deed.command? = [c.inDir p.path] ∨
        ∃ c' child child', Command.ofWords commands.build = .ok c' ∧
          deeds.filterMap Deed.command? = [c.inDir p.path, c'.inDir p.path] ∧
          [.started (c.inDir p.path) child, .ended (.exited 0),
            .started (c'.inDir p.path) child'] <+: deeds) := by
  cases built with
  | installing _ _ course =>
    rcases course.starts with empty | ⟨c, child, rest, meant, rfl, only⟩
    · exact .inl empty
    · exact .inr ⟨c, meant, .inl (congrArg (List.cons _) only)⟩
  | building first second _ installed course =>
    obtain ⟨c, child, meant, rfl⟩ := installed.well
    refine .inr ⟨c, meant, ?_⟩
    rcases course.starts with empty | ⟨c', child', rest, meant', rfl, only⟩
    · exact .inl (congrArg (List.cons _) empty)
    · exact .inr ⟨c', child, child', meant', congrArg (fun rest => _ :: _ :: rest) only, rest, rfl⟩

theorem Built.outcome_eq_true_iff {outcome : Option Bool} (built : Built commands p deeds outcome) :
    outcome = some true ↔ ∃ c child c' child', deeds =
      [.started c child, .ended (.exited 0), .started c' child', .ended (.exited 0)] := by
  constructor
  · rintro rfl
    cases built with
    | installing _ _ course short => exact (short rfl).elim
    | building first second _ installed course =>
      obtain ⟨c, child, -, rfl⟩ := installed.well
      obtain ⟨c', child', -, rfl⟩ := course.well
      exact ⟨_, child, _, child', rfl⟩
  · rintro ⟨c, child, c', child', same⟩
    cases built with
    | installing _ _ course => cases course <;> cases same
    | building first second _ installed course =>
      obtain ⟨_, _, -, rfl⟩ := installed.well
      cases course <;> cases same
      rfl

theorem Course.workDir {words : List String} {outcome : Option Bool}
    (course : Course p words deeds outcome) (c : Command) (child : Child)
    (listed : .started c child ∈ deeds) : c.workDir = some p.path := by
  cases course with
  | ahead | nothing => cases listed
  | refused => cases List.mem_singleton.mp listed
  | atWork | ended | lost =>
    obtain ⟨rfl, -⟩ : c = _ ∧ child = _ := by simpa using listed
    rfl

theorem Built.workDir {outcome : Option Bool} (built : Built commands p deeds outcome)
    (c : Command) (child : Child) (listed : .started c child ∈ deeds) :
    c.workDir = some p.path := by
  cases built with
  | installing _ _ course => exact course.workDir c child listed
  | building first second _ installed course =>
    rcases List.mem_append.mp listed with inFirst | inSecond
    · exact installed.workDir c child inFirst
    · exact course.workDir c child inSecond

/-- A toolchain that builds starts nothing, its installing command, or its installing command and
then its building one. The second is started only after the first has ended with code zero, and the
build succeeds exactly if both were started and ended so. Each program that is started, to build or
to serve, is an allowed one, and builds are made in the project. It does not matter what the host
answers; and whatever a supervisor at work has got done of a build, it goes on in this way. -/
theorem commands_gated (outDir : String) (commands : ToolchainSettings) (p : Project) :
    let s := toolchain outDir commands
    (∀ (last : Errand Bool) (deeds : List Deed), Errand.Carried last ⟨s.build p, none⟩ deeds →
      (deeds.filterMap Deed.command? = [] ∨ ∃ c, Command.ofWords commands.install = .ok c ∧
        (deeds.filterMap Deed.command? = [c.inDir p.path] ∨
          ∃ c' child child', Command.ofWords commands.build = .ok c' ∧
            deeds.filterMap Deed.command? = [c.inDir p.path, c'.inDir p.path] ∧
            [.started (c.inDir p.path) child, .ended (.exited 0),
              .started (c'.inDir p.path) child'] <+: deeds)) ∧
      (∀ c child, .started c child ∈ deeds →
        c.isAllowed = true ∧ ∃ d : Disk, d.locate true p.path = .ok child.script.here.dir) ∧
      (∀ result, last.plan = .done result →
        (result = true ↔ ∃ c child c' child', deeds =
          [.started c child, .ended (.exited 0), .started c' child', .ended (.exited 0)])) ∧
      ∀ l : Live, let (l', plan, child) := l.follow last.plan last.child
        ∃ more, Errand.Carried ⟨plan, child⟩ ⟨s.build p, none⟩ (deeds ++ more) ∧
          l'.watched = l.watched ++ more.filterMap Deed.pid?) ∧
    ∀ (last : Errand (Outcome Session)) (deeds : List Deed),
      Errand.Carried last ⟨s.serve p, none⟩ deeds →
      ∀ c child, .started c child ∈ deeds → c.isAllowed = true := by
  intro s
  refine ⟨fun last deeds carried => ?_, fun last deeds carried c child listed =>
    (carried.startsAs c child listed).1⟩
  obtain ⟨outcome, built, ended⟩ := built_of_carried carried
  refine ⟨built.starts, fun c child listed => ?_, fun result same => ?_, fun l => ?_⟩
  · obtain ⟨allowed, d, located⟩ := carried.startsAs c child listed
    exact ⟨allowed, d, located p.path (built.workDir c child listed)⟩
  · rw [← built.outcome_eq_true_iff, ended result same, Option.some_inj]
  · obtain ⟨more, carried', watched⟩ := l.follow_carried last.plan last.child
    exact ⟨more, carried.trans carried', watched⟩

/-- A machine with a shell, and a project whose commands are bare shells. -/
def shellHost : Host where
  disk := ⟨[(["site"], .directory), (["bin"], .directory),
    (["bin", "sh"], .file ByteArray.empty true)], []⟩
  table := ⟨[⟨"/bin"⟩], [(["bin", "sh"], false)], []⟩

def shells : ToolchainSettings := ⟨["sh"], ["sh"], ["sh"]⟩

def shellSite : Project := ⟨"site", ⟨"/site"⟩, 0, 0⟩

/-- A build that goes well starts both commands. -/
theorem shells_started : ∃ deeds,
    Errand.Carried ⟨.done true, none⟩ ⟨(toolchain "dist" shells).build shellSite, none⟩ deeds ∧
      ∃ c child c' child', deeds =
        [.started c child, .ended (.exited 0), .started c' child', .ended (.exited 0)] := by
  let c : Command := ⟨"sh", [], some ⟨"/site"⟩⟩
  have possible : (shellHost.start c).1.isOk = true := by decide +kernel
  obtain ⟨pid, started⟩ : ∃ pid, (shellHost.start c).1 = .ok pid := by
    cases answer : (shellHost.start c).1 with
    | ok pid => exact ⟨pid, rfl⟩
    | error e => simp [answer, Except.isOk, Except.toBool] at possible
  obtain ⟨-, child, rfl, new, -⟩ := Host.start_eq_ok (Prod.ext started rfl)
  have asked : shellHost.start c = (.ok child.pid, (shellHost.start c).2) := Prod.ext started rfl
  let ended : Child := { child with ending := some (.exited 0) }
  have command (next : Bool → Plan Bool) (deeds : List Deed)
      (rest : Errand.Carried ⟨.done true, none⟩ ⟨next true, none⟩ deeds) :
      Errand.Carried ⟨.done true, none⟩ ⟨(commandPlan ["sh"] shellSite).bind next, none⟩
        (.started c child :: .ended (.exited 0) :: deeds) := by
    rw [commandPlan_eq ["sh"] ⟨"sh", [], none⟩ rfl]
    exact .say _ _ _ _ (.start c _ _ _ child _ asked new
      (.finish c _ child.pid ended _ 0 _ rfl rfl rest))
  have carried : Errand.Carried ⟨.done true, none⟩
      ⟨(toolchain "dist" shells).build shellSite, none⟩
      [.started c child, .ended (.exited 0), .started c child, .ended (.exited 0)] := by
    change Errand.Carried _ ⟨toolchainPlan shells shellSite, none⟩ _
    rw [toolchainPlan_eq]
    exact .say _ _ _ _ (.say _ _ _ _ (command _ _ (command _ _
      (.say _ _ _ _ (.say _ _ _ _ .pause)))))
  have gated := (commands_gated "dist" shells shellSite).1 _ _ carried
  exact ⟨_, carried, (gated.2.2.1 true rfl).mp rfl⟩

end Workbench.Strategy
