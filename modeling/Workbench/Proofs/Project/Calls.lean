import Workbench.Proofs.Project.Registry
import Workbench.Proofs.Project.Starter

/-! Calls to a registry, one after another. Each call that returns a project adds it to the list, and
one that fails leaves the file of the registry as it was. -/
namespace Workbench

open Disk

/-- The directory of a new project is made, with the starter files in it. -/
def Registry.scaffold (root : Path) (name : String) : Task Error Unit := do
  makeDirsAt root
  Starter.write root name

/-- A new project is made and registered, once its name and its place are free to be used. -/
def Registry.establish (r : Registry) (root : Path) (name : String) (now : Int) :
    Task Error Project := do
  scaffold root name
  let path ← Task.mapError (Error.ofFault root) (Task.ask (Disk.canonical · root))
  r.append (.make name path now)

/-- A task that may fail, but not by a refusal. -/
def NeverRefuses {α : Type} (x : Task Error α) : Prop := ∀ d why, (x d).1 ≠ .error (.refused why)

namespace NeverRefuses

variable {α β : Type}

theorem pure (a : α) : NeverRefuses (Pure.pure a) := fun _ _ same => by cases same

theorem bind (x : Task Error α) (f : α → Task Error β) (first : NeverRefuses x)
    (later : ∀ a, NeverRefuses (f a)) : NeverRefuses (x >>= f) := by
  intro d why
  have step := first d why
  rw [bind_apply]
  generalize x d = result at step
  rcases result with ⟨e | a, mid⟩
  · intro same
    cases same
    exact step rfl
  · exact later a mid why

theorem look (f : Disk → α) : NeverRefuses (Task.look f) := fun _ _ same => by cases same

/-- A fault at a path is no refusal. -/
theorem ofFault (p : Path) (x : Task Fault α) :
    NeverRefuses (Task.mapError (Error.ofFault p) x) := by
  intro d why
  unfold Task.mapError
  rcases x d with ⟨fault | a, mid⟩
  · dsimp only
    unfold Error.ofFault
    split <;> simp
  · simp

theorem runAll (steps : List WriteStep) : NeverRefuses (WriteStep.runAll steps) := by
  induction steps with
  | nil => exact pure ()
  | cons step rest ih => exact bind _ _ (ofFault _ _) fun _ => ih

theorem scaffold (root : Path) (name : String) : NeverRefuses (Registry.scaffold root name) := by
  unfold Registry.scaffold Starter.write
  refine bind _ _ (ofFault _ _) fun _ => bind _ _
    (forIn_of_each (fun _ => NeverRefuses) (fun _ => pure) (fun _ _ => bind) _ _ ?_) fun _ => bind _ _
      (forIn_of_each (fun _ => NeverRefuses) (fun _ => pure) (fun _ _ => bind) _ _ ?_) fun _ => pure _
  · exact fun dir _ => bind _ _ (ofFault _ _) fun _ => pure _
  · exact fun file _ => bind _ _ (ofFault _ _) fun _ => pure _

theorem append (r : Registry) (p : Project) : NeverRefuses (r.append p) :=
  bind _ _ (look _) fun _ => bind _ _ (runAll _) fun _ => pure p

theorem establish (r : Registry) (root : Path) (name : String) (now : Int) :
    NeverRefuses (r.establish root name now) :=
  bind _ _ (scaffold root name) fun _ => bind _ _ (ofFault root _) fun _ => append r _

end NeverRefuses

namespace Registry

/-- What a registry is asked for. -/
inductive Call where
  | create (workspace : Path) (name : String) (now : Int64)
  | register (home : Option String) (input : String) (now : Int64)

/-- A call, and the disk that it is made on. -/
structure Turn where
  call : Call
  disk : Disk

def call (r : Registry) : Call → Task Error Project
  | .create workspace name now => r.create workspace name now.toInt
  | .register home input now => r.register home input now.toInt

/-- The turns of calls that are made one after another. -/
def turns (r : Registry) : List Call → Disk → List Turn
  | [], _ => []
  | c :: rest, d => ⟨c, d⟩ :: r.turns rest (r.call c d).2

/-- The disk that calls leave behind. -/
def after (r : Registry) : List Call → Disk → Disk
  | [], d => d
  | c :: rest, d => r.after rest (r.call c d).2

/-- The project that a turn adds, if it goes through. -/
def added? (r : Registry) (turn : Turn) : Option Project := (r.call turn.call turn.disk).1.toOption

/-- A new project lies apart from the file of a registry: no directory is made in the place of the
file on the way to the project, and no path at or below the project leads to the file. -/
structure LiesApart (r : Registry) (place : Location) (root : Path) (title : String) (d : Disk) :
    Prop where
  way : (makeDirs root d).2.get? place = d.get? place
  below : ∀ k, k = place ∨ d.locate true r.file = .ok k → ¬(scaffold root title d).2.Reaches root k

/-- What is created in a turn, if anything is, lies apart from the file of the registry. -/
def Spares (r : Registry) (place : Location) (turn : Turn) : Prop :=
  match turn.call with
  | .create workspace title _ => refusal? title = none →
    turn.disk.isThere (workspace.child title) = false →
    r.LiesApart place (workspace.child title) title turn.disk
  | .register .. => True

/-- What a call with a result made of the registry: a project is added, and a failure changes
nothing in the file. A refusal changes nothing at all. -/
structure Recorded (r : Registry) (place : Location) (result : Outcome Project) (d d' : Disk) :
    Prop where
  added : ∀ p, result = .ok p → r.list d' = r.list d ++ [p]
  failed : ∀ e, result = .error e → Untouched r.file place d d'
  refused : ∀ why, result = .error (.refused why) → d' = d

variable {r : Registry} {d d' : Disk} {dir : Location} {name : String}

theorem Recorded.of_error (r : Registry) (place : Location) (e : Error) (d : Disk) :
    r.Recorded place (.error e) d d :=
  ⟨fun _ same => (by cases same), fun _ _ => .refl _ _ d, fun _ _ => rfl⟩

/-- What leaves the file as it is may go before a call that refuses nothing. -/
theorem Recorded.behind {mid : Disk} {place : Location} {result : Outcome Project}
    (recorded : r.Recorded place result mid d') (first : Untouched r.file place d mid)
    (patient : ∀ why, result ≠ .error (.refused why)) : r.Recorded place result d d' where
  added p same := by rw [recorded.added p same, r.list_congr first.content]
  failed e same := first.trans (recorded.failed e same)
  refused why same := absurd same (patient why)

/-- A project is added by writing the list with the project behind the others. -/
theorem append_eq (r : Registry) (p : Project) (d : Disk) :
    r.append p d = match r.save (r.list d ++ [p]) d with
      | (.ok (), d') => (.ok p, d')
      | (.error e, d') => (.error e, d') := by
  rw [append, Task.look_bind, bind_apply]
  rcases r.save (r.list d ++ [p]) d with ⟨_ | _, _⟩ <;> rfl

theorem append_recorded (sound : Replaceable d r.file dir name) (p : Project)
    (timely : p.IsTimely) :
    Replaceable (r.append p d).2 r.file dir name ∧
      r.Recorded (dir ++ [name]) (r.append p d).1 d (r.append p d).2 := by
  have known := r.timely_of_list_concat (d := d) timely
  obtain ⟨sound', result⟩ := sound.replace (encode (r.list d ++ [p])).toUTF8
  have patient := NeverRefuses.append r p d
  rw [append_eq, save, replaceText] at patient ⊢
  generalize Disk.replace r.file (encode (r.list d ++ [p])).toUTF8 d = done at sound' result patient ⊢
  obtain ⟨answer, d'⟩ := done
  rcases result with ⟨ok, content⟩ | ⟨⟨e, failed⟩, same⟩
  · cases ok
    refine ⟨sound', fun q same => ?_, fun _ same => (by cases same), fun _ same => (by cases same)⟩
    cases same
    exact r.list_of_content _ known content
  · cases failed
    refine ⟨sound', fun _ same => (by cases same), fun _ _ => same, fun why refused => ?_⟩
    cases refused
    exact absurd rfl (patient why)

/-- The directory of a project is made, and the rest goes into it. -/
theorem scaffold_cases (storable : d.IsStorable) (root : Path) (title : String)
    (nonempty : root.text ≠ "") : Extended d (makeDirs root d).2 ∧
      ((scaffold root title d).2 = (makeDirs root d).2 ∨
        Furnished root (makeDirs root d).2 (scaffold root title d).2) := by
  have grown := (made_of_makeDirs root d).extended storable
  refine ⟨grown, ?_⟩
  rw [scaffold, bind_apply, makeDirsAt, Task.mapError]
  cases done : makeDirs root d with
  | mk result mid =>
    rw [done] at grown
    cases result with
    | error fault => exact .inl rfl
    | ok =>
      exact .inr (Starter.write_furnishes root title mid grown.storable
        (isDir_of_makeDirs nonempty done))

/-- A project that lies apart from the registry leaves its file as it is. -/
theorem scaffold_untouched (sound : Replaceable d r.file dir name) (root : Path) (title : String)
    (nonempty : root.text ≠ "") (apart : r.LiesApart (dir ++ [name]) root title d) :
    Replaceable (scaffold root title d).2 r.file dir name ∧
      Untouched r.file (dir ++ [name]) d (scaffold root title d).2 := by
  have kept (k : Location) (there : k = dir ++ [name] ∨ d.locate true r.file = .ok k) :
      (makeDirs root d).2.get? k = d.get? k := by
    rcases there with rfl | located
    · exact apart.way
    · obtain ⟨e, found, -⟩ := locate_plain sound.storable.toIsTree r.file k located
      rw [found, (made_of_makeDirs root d).kept k e found]
  obtain ⟨grown, same | furnished⟩ := scaffold_cases sound.storable root title nonempty
  · rw [same]
    exact ⟨sound.extended grown apart.way, sound.untouched grown kept⟩
  · have further := grown.trans furnished.toExtended
    have kept' (k : Location) (there : k = dir ++ [name] ∨ d.locate true r.file = .ok k) :
        (scaffold root title d).2.get? k = d.get? k :=
      ((furnished.same k).resolve_right (apart.below k there)).trans (kept k there)
    exact ⟨sound.extended further (kept' _ (.inl rfl)), sound.untouched further kept'⟩

theorem isInt64_toInt (now : Int64) : IsInt64 now.toInt := ⟨now.minValue_le_toInt, now.toInt_le⟩

/-- A project that is made apart from the registry is recorded. -/
theorem establish_recorded (sound : Replaceable d r.file dir name) (root : Path) (title : String)
    (now : Int64) (nonempty : root.text ≠ "") (apart : r.LiesApart (dir ++ [name]) root title d) :
    Replaceable (r.establish root title now.toInt d).2 r.file dir name ∧
      r.Recorded (dir ++ [name]) (r.establish root title now.toInt d).1 d
        (r.establish root title now.toInt d).2 := by
  obtain ⟨sound', same⟩ := scaffold_untouched sound root title nonempty apart
  have patient := NeverRefuses.establish r root title now.toInt d
  suffices later : Replaceable (r.establish root title now.toInt d).2 r.file dir name ∧
      r.Recorded (dir ++ [name]) (r.establish root title now.toInt d).1 (scaffold root title d).2
        (r.establish root title now.toInt d).2 from ⟨later.1, later.2.behind same patient⟩
  rw [establish, bind_apply]
  generalize scaffold root title d = done at sound'
  obtain ⟨e | ⟨⟩, mid⟩ := done
  · exact ⟨sound', .of_error r _ e mid⟩
  · dsimp only
    rw [bind_apply, Task.mapError, Task.ask]
    cases mid.canonical root with
    | error fault => exact ⟨sound', .of_error r _ _ mid⟩
    | ok path => exact append_recorded sound' _ (Project.isTimely_make _ _ _ (isInt64_toInt now))

/-- A name that is not refused is not empty. -/
theorem name_ne (title : String) (open_ : refusal? title = none) : title ≠ "" := by
  rintro rfl
  revert open_
  decide

theorem create_cases (r : Registry) (workspace : Path) (title : String) (now : Int) (d : Disk) :
    (∃ e, r.create workspace title now d = (.error e, d)) ∨
      refusal? title = none ∧ d.isThere (workspace.child title) = false ∧
        r.create workspace title now d = r.establish (workspace.child title) title now d := by
  unfold create
  cases open_ : refusal? title with
  | some why => exact .inl ⟨_, rfl⟩
  | none =>
    dsimp only
    rw [Task.look_bind]
    cases there : d.isThere (workspace.child title) with
    | true => exact .inl ⟨_, rfl⟩
    | false =>
      right
      refine ⟨rfl, rfl, ?_⟩
      simp [establish, scaffold]

/-- A user's path to a directory stands for the place that it leads to. -/
theorem directory_eq_ok_iff {home : Option String} {input : String} {user : UserPath}
    (asked : UserPath.ofInput d home input = .ok user) (place : Path) :
    user.directory d = .ok place ↔
      ∃ l, d.locate true user.expanded = .ok l ∧ d.get? l = some .directory ∧ l.path = place := by
  have canonical : user.canonical? = (d.canonical user.expanded).toOption := by
    unfold UserPath.ofInput at asked
    dsimp only at asked
    split at asked
    · cases asked
    · split at asked
      · cases asked
      · cases asked
        rfl
  constructor
  · intro found
    unfold UserPath.directory at found
    split at found
    · cases found
    · split at found
      · cases found
      next isDir =>
        cases found
        obtain ⟨l, located, directory⟩ := (isDir_iff _).mp (by simpa using isDir)
        refine ⟨l, located, directory, ?_⟩
        rw [UserPath.path, canonical, (canonical_eq_ok_iff _ _).mpr ⟨l, located, rfl⟩]
        rfl
  · rintro ⟨l, located, directory, rfl⟩
    have isDir := (isDir_iff _).mpr ⟨l, located, directory⟩
    have isThere := (isThere_iff _).mpr ⟨l, located, by rw [directory]; rfl⟩
    rw [UserPath.directory, isDir, isThere, UserPath.path, canonical,
      (canonical_eq_ok_iff _ _).mpr ⟨l, located, rfl⟩]
    rfl

/-- A directory is registered by its place, which no known project has. -/
theorem register_cases (r : Registry) (home : Option String) (input : String) (now : Int)
    (d : Disk) :
    (∃ e, r.register home input now d = (.error e, d)) ∨
      ∃ l : Location, d.get? l = some .directory ∧ (∀ q ∈ r.list d, q.path ≠ l.path) ∧
        r.register home input now d = r.append (.ofDir l.path now) d := by
  unfold register
  rw [bind_apply, Task.ask]
  cases asked : UserPath.ofInput d home input with
  | error e => exact .inl ⟨e, rfl⟩
  | ok user =>
    dsimp only
    rw [bind_apply, Task.ask]
    cases found : user.directory d with
    | error e => exact .inl ⟨e, rfl⟩
    | ok p =>
      obtain ⟨l, -, directory, rfl⟩ := (directory_eq_ok_iff asked p).mp found
      dsimp only
      rw [Task.look_bind]
      split
      · rw [Task.look_bind]
        split
        · exact .inl ⟨_, rfl⟩
        next unknown =>
          refine .inr ⟨l, directory, fun q listed same => unknown ?_, rfl⟩
          exact List.any_eq_true.mpr ⟨q, listed, by simp [same, Path.isSameAs]⟩
      · exact .inl ⟨_, rfl⟩

/-- A directory that has what a project needs is registered unless it is known. -/
theorem register_eq (r : Registry) {home : Option String} {input : String} {user : UserPath}
    {place : Path} (now : Int) (asked : UserPath.ofInput d home input = .ok user)
    (found : user.directory d = .ok place)
    (marked : (d.isDir (place.child "src") || d.isFile (place.child "package.json")) = true) :
    r.register home input now d =
      if (r.list d).any (·.path.isSameAs place) then (.error (.refused (.projectKnown place)), d)
      else r.append (.ofDir place now) d := by
  unfold register
  rw [bind_apply, Task.ask, asked]
  dsimp only
  rw [bind_apply, Task.ask, found]
  dsimp only
  rw [Task.look_bind, if_pos marked, Task.look_bind]
  split <;> rfl

theorem append_eq_ok {p q : Project} (appended : r.append p d = (.ok q, d')) :
    q = p ∧ r.save (r.list d ++ [p]) d = (.ok (), d') := by
  rw [append_eq] at appended
  generalize r.save (r.list d ++ [p]) d = done at appended
  rcases done with ⟨_ | ⟨⟨⟩⟩, mid⟩ <;> cases appended
  exact ⟨rfl, rfl⟩

theorem append_of_saved {p : Project} (saved : (r.save (r.list d ++ [p]) d).1 = .ok ()) :
    (r.append p d).1 = .ok p := by
  rw [append_eq]
  generalize r.save (r.list d ++ [p]) d = done at saved
  obtain ⟨answer, d'⟩ := done
  cases saved
  rfl

theorem establish_eq_ok {root : Path} {title : String} {now : Int} {p : Project}
    (made : r.establish root title now d = (.ok p, d')) : ∃ mid path,
      scaffold root title d = (.ok (), mid) ∧ mid.canonical root = .ok path ∧
      p = .make title path now ∧ r.save (r.list mid ++ [p]) mid = (.ok (), d') := by
  rw [establish, bind_eq_ok_iff] at made
  obtain ⟨⟨⟩, mid, scaffolded, made⟩ := made
  rw [bind_eq_ok_iff] at made
  obtain ⟨path, mid', asked, appended⟩ := made
  obtain ⟨found, rfl⟩ := (Task.ask_eq_ok_iff _ _).mp ((Task.mapError_eq_ok_iff _ _ _).mp asked)
  obtain ⟨rfl, saved⟩ := append_eq_ok appended
  exact ⟨mid', path, scaffolded, found, rfl, saved⟩

/-- One call that spares the registry is recorded. -/
theorem call_recorded (sound : Replaceable d r.file dir name) (c : Call)
    (spares : r.Spares (dir ++ [name]) ⟨c, d⟩) :
    Replaceable (r.call c d).2 r.file dir name ∧
      r.Recorded (dir ++ [name]) (r.call c d).1 d (r.call c d).2 := by
  cases c with
  | create workspace title now =>
    rcases r.create_cases workspace title now.toInt d with ⟨e, same⟩ | ⟨open_, free, whole⟩
    · rw [call, same]
      exact ⟨sound, .of_error r _ e d⟩
    · rw [call, whole]
      exact establish_recorded sound _ title now (Path.text_join_ne (name_ne title open_))
        (spares open_ free)
  | register home input now =>
    rcases r.register_cases home input now.toInt d with ⟨e, same⟩ | ⟨l, -, -, same⟩
    · rw [call, same]
      exact ⟨sound, .of_error r _ e d⟩
    · rw [call, same]
      exact append_recorded sound _ (Project.isTimely_make _ _ _ (isInt64_toInt now))

/-- Calls that spare the registry add the projects that they return to the list, one after another.
A call that fails leaves the file as it was, and one that is refused the whole disk. -/
theorem turns_recorded (sound : Replaceable d r.file dir name) (calls : List Call)
    (spared : ∀ turn ∈ r.turns calls d, r.Spares (dir ++ [name]) turn) :
    r.list (r.after calls d) = r.list d ++ (r.turns calls d).filterMap r.added? ∧
      ∀ turn ∈ r.turns calls d, r.Recorded (dir ++ [name]) (r.call turn.call turn.disk).1 turn.disk
        (r.call turn.call turn.disk).2 := by
  induction calls generalizing d with
  | nil => exact ⟨by simp [after, turns], fun _ among => by cases among⟩
  | cons c rest ih =>
    obtain ⟨sound', recorded⟩ := call_recorded sound c (spared _ List.mem_cons_self)
    obtain ⟨listed, later⟩ := ih sound' fun turn member => spared turn (List.mem_cons_of_mem _ member)
    have step : r.list (r.call c d).2 = r.list d ++ (r.added? ⟨c, d⟩).toList := by
      rw [added?]
      cases result : (r.call c d).1 with
      | ok p => exact recorded.added p result
      | error e =>
        rw [r.list_congr (recorded.failed e result).content]
        exact (List.append_nil _).symm
    refine ⟨?_, fun turn member => ?_⟩
    · calc r.list (r.after (c :: rest) d)
          = r.list (r.call c d).2 ++ (r.turns rest (r.call c d).2).filterMap r.added? := listed
        _ = r.list d ++ ((r.added? ⟨c, d⟩).toList ++
              (r.turns rest (r.call c d).2).filterMap r.added?) := by
          rw [step, List.append_assoc]
        _ = r.list d ++ (r.turns (c :: rest) d).filterMap r.added? := by
          rw [turns, List.filterMap_cons]
          cases r.added? ⟨c, d⟩ <;> rfl
    · rcases List.mem_cons.mp member with rfl | further
      · exact recorded
      · exact later turn further

/-- A project whose directory is not above the file of the registry lies apart from it, if it is made
where no links are. -/
theorem liesApart_of_located (storable : d.IsStorable) (place l : Location) (root : Path)
    (title : String) (nonempty : root.text ≠ "")
    (located : (makeDirs root d).2.locate true root = .ok l)
    (linkless : ∀ rest target, d.get? (l ++ rest) ≠ some (.link target))
    (way : (makeDirs root d).2.get? place = d.get? place)
    (outside : ∀ k, k = place ∨ d.locate true r.file = .ok k → ¬l <+: k) :
    r.LiesApart place root title d := by
  obtain ⟨grown, rest⟩ := scaffold_cases storable root title nonempty
  have whole : Extended (makeDirs root d).2 (scaffold root title d).2 := by
    rcases rest with same | furnished
    · rw [same]
      exact .refl grown.storable
    · exact furnished.toExtended
  refine ⟨way, fun k there reached => outside k there ?_⟩
  exact reached.within (locate_mono whole.part whole.workDir located)
    fun rest _ target found => linkless rest target ((grown.trans whole).link _ target found)

/-- A disk with a directory for projects, and a registry whose directory is missing. -/
def bare : Disk where
  entries := [(["work"], .directory)]
  workDir := []

def unwritten : Registry := ⟨⟨"/state/projects.json"⟩⟩

/-- A project is made and then registered once more, which is refused. -/
def madeTwice : List Call := [.create ⟨"/work"⟩ "n" 5, .register none "/work/n" 6]

theorem bare_storable : bare.IsStorable := .of_listed (by decide) (by decide)

theorem bare_linkless (l : Location) (target : Path) : bare.get? l ≠ some (.link target) :=
  get?_ne_link (by simp [bare]) l target

theorem bare_replaceable : Replaceable bare unwritten.file ["state"] "projects.json" where
  storable := bare_storable
  aims := ⟨by decide, by decide, ⟨by decide, by decide, by decide⟩, [], ["state"], 0, [], by decide,
    Nat.zero_le _, .arrive _, by decide, ⟨by decide, fun _ _ _ _ => bare_linkless _ _⟩, by decide⟩
  live target found := absurd found (bare_linkless _ target)
  temporary := bare_linkless _

theorem bare_spared : ∀ turn ∈ unwritten.turns madeTwice bare,
    unwritten.Spares ["state", "projects.json"] turn := by
  have root : (Path.mk "/work").child "n" = ⟨"/work/n"⟩ := by decide
  rintro turn (_ | ⟨_, _ | ⟨_, listed⟩⟩)
  · intro _ _
    rw [root]
    obtain ⟨way, located, missing⟩ :
        (makeDirs ⟨"/work/n"⟩ bare).2.get? ["state", "projects.json"] = none ∧
          (makeDirs ⟨"/work/n"⟩ bare).2.locate true ⟨"/work/n"⟩ = .ok ["work", "n"] ∧
          bare.locate true unwritten.file = .error .missing := by decide
    refine liesApart_of_located bare_storable _ ["work", "n"] _ _ (by decide) located
      (fun _ => bare_linkless _) way ?_
    rintro k (rfl | found)
    · decide
    · rw [missing] at found
      cases found
  · trivial
  · cases listed

/-- The project is listed, whether or not it can be registered again. -/
theorem bare_recorded : Replaceable bare unwritten.file ["state"] "projects.json" ∧
    (∀ turn ∈ unwritten.turns madeTwice bare,
      unwritten.Spares ["state", "projects.json"] turn) ∧
    unwritten.list (unwritten.after madeTwice bare) =
      unwritten.list bare ++ (unwritten.turns madeTwice bare).filterMap unwritten.added? ∧
    ∀ turn ∈ unwritten.turns madeTwice bare, unwritten.Recorded ["state", "projects.json"]
      (unwritten.call turn.call turn.disk).1 turn.disk (unwritten.call turn.call turn.disk).2 :=
  ⟨bare_replaceable, bare_spared, turns_recorded bare_replaceable madeTwice bare_spared⟩

/-- A disk with a link to its own directory, and a registry whose path passes the link twice. -/
def looped : Disk where
  entries := [(["a"], .directory), (["a", "x"], .link ⟨"."⟩), (["work"], .directory)]
  workDir := []

def roundabout : Registry := ⟨⟨"/a/x/x"⟩⟩

def madeOnce : Call := .create ⟨"/work"⟩ "n" 5

theorem looped_spared : roundabout.Spares ["a", "x"] ⟨madeOnce, looped⟩ := by
  intro _ _
  have root : (Path.mk "/work").child "n" = ⟨"/work/n"⟩ := by decide
  rw [root]
  obtain ⟨way, located, top⟩ :
      (makeDirs ⟨"/work/n"⟩ looped).2.get? ["a", "x"] = looped.get? ["a", "x"] ∧
        (makeDirs ⟨"/work/n"⟩ looped).2.locate true ⟨"/work/n"⟩ = .ok ["work", "n"] ∧
        looped.locate true roundabout.file = .ok ["a"] := by decide
  refine liesApart_of_located (.of_listed (by decide) (by decide)) _ ["work", "n"] _ _ (by decide)
    located (fun rest target found => ?_) way ?_
  · rw [get?_of_ne _ (by simp)] at found
    have listed := mem_entries_of_lookup (d := looped) _ _ found
    revert listed
    simp [looped]
  · rintro k (rfl | found)
    · decide
    · rw [top] at found
      cases found
      decide

/-- The file of such a registry takes the place of the link that its path goes through, so that a
project that was made is not in the list. -/
theorem created_dropped : looped.IsStorable ∧
    (∀ turn ∈ roundabout.turns [madeOnce] looped, roundabout.Spares ["a", "x"] turn) ∧
    looped.isThere roundabout.file.temporary = false ∧
    (roundabout.turns [madeOnce] looped).filterMap roundabout.added? =
      [.make "n" ⟨"/work/n"⟩ 5] ∧
    roundabout.list (roundabout.after [madeOnce] looped) ≠
      roundabout.list looped ++ (roundabout.turns [madeOnce] looped).filterMap roundabout.added? := by
  refine ⟨.of_listed (by decide) (by decide), ?_, by decide +kernel⟩
  rintro turn (_ | ⟨_, listed⟩)
  · exact looped_spared
  · cases listed

end Registry

end Workbench
