import Workbench.Proofs.Disk.Fresh
import Workbench.Proofs.Project.Naming
import Workbench.Proofs.Project.Reading
/-!
# The directories of projects

A registry lists each project by the canonical path of its directory, and no directory twice. Only
the project that is registered from outside is compared with those that are known. One that is made
is new because its path leads nowhere before, unless the path goes up through a directory that is
missing: it may then lead to an old directory once the missing one is made.
-/
namespace Workbench

open Disk

namespace Registry

variable {r : Registry} {d d' : Disk} {projects : List Project} {p : Project}

/-- The path of a directory leads to it. -/
theorem locate_of_path (tree : d.IsTree) {l : Location} {place : Path}
    (directory : d.get? l = some .directory) (path : l.path = place) :
    d.locate true place = .ok l := by
  rw [← path]
  exact locate_path tree l _ directory Entry.isPlain_directory

/-- Each project has its path from a directory, and no two have the same. -/
structure Housed (d : Disk) (projects : List Project) : Prop where
  there : ∀ p ∈ projects, ∃ l, d.get? l = some .directory ∧ l.path = p.path
  apart : (projects.map Project.path).Nodup

theorem Housed.nil (d : Disk) : Housed d [] := ⟨by simp, by simp⟩

theorem Housed.mono (housed : Housed d projects)
    (kept : ∀ p ∈ projects, ∀ l, l.path = p.path → d.get? l = some .directory →
      d'.get? l = some .directory) : Housed d' projects := by
  refine ⟨fun p listed => ?_, housed.apart⟩
  obtain ⟨l, directory, same⟩ := housed.there p listed
  exact ⟨l, kept p listed l same directory, same⟩

theorem Housed.concat (housed : Housed d projects) {l : Location}
    (directory : d.get? l = some .directory) (path : l.path = p.path)
    (new : ∀ q ∈ projects, q.path ≠ l.path) : Housed d (projects ++ [p]) := by
  constructor
  · intro q listed
    rcases List.mem_append.mp listed with old | last
    · exact housed.there q old
    · obtain rfl := List.mem_singleton.mp last
      exact ⟨l, directory, path⟩
  · rw [List.map_append, List.nodup_append]
    refine ⟨housed.apart, List.nodup_singleton _, ?_⟩
    rintro _ old _ last rfl
    obtain ⟨q, listed, same⟩ := List.mem_map.mp old
    exact new q listed (by rw [same, List.mem_singleton.mp last, path])

/-- Whatever list the registry reads or may come to read, its projects are housed. -/
structure Orderly (r : Registry) (d : Disk) : Prop where
  storable : d.IsStorable
  housed : ∀ projects, r.MayRead d projects → Housed d projects

theorem Orderly.list (orderly : r.Orderly d) : Housed d (r.list d) := by
  rcases r.list_cases orderly.storable with empty | read
  · rw [empty]
    exact .nil d
  · exact orderly.housed _ read

theorem Orderly.stocked {texts : List String} (orderly : r.Orderly d)
    (stocked : Stocked texts d d') (lists : ∀ text ∈ texts, Housed d' (projectsIn text)) :
    r.Orderly d' := by
  refine ⟨stocked.storable, fun projects read => ?_⟩
  rcases read.of_stocked stocked with before | ⟨text, listed, rfl⟩
  · exact (orderly.housed projects before).mono fun _ _ l _ => stocked.part.directory l
  · exact lists text listed

/-- A registry is written with one more project, or it fails to be. -/
theorem Orderly.append (orderly : r.Orderly d) (timely : p.IsTimely)
    (housed : Housed d (r.list d ++ [p])) : r.Orderly (r.append p d).2 := by
  have known := r.timely_of_list_concat (d := d) timely
  have written : (r.append p d).2 = (replaceText r.file (encode (r.list d ++ [p])) d).2 := by
    rw [append_eq, save]
    rcases replaceText r.file (encode (r.list d ++ [p])) d with ⟨_ | _, _⟩ <;> rfl
  rw [written]
  rcases replaceText_cases orderly.storable r.file (encode (r.list d ++ [p])) with
    ⟨e, d', done, stocked⟩ | ⟨d', done, changed⟩
  · rw [done]
    refine orderly.stocked stocked fun text listed => ?_
    rw [List.mem_singleton.mp listed, projectsIn_encode _ known]
    exact housed.mono fun _ _ l _ => stocked.part.directory l
  · rw [done]
    refine ⟨changed.storable, fun projects read => ?_⟩
    rw [read.of_changed changed, projectsIn_encode _ known]
    exact housed.mono fun _ _ l _ => changed.directories l

/-- When the directories that are missing on its way are made, the path leads to the directory of a
project that the registry may list. -/
def Doubles (r : Registry) (d : Disk) (root : Path) : Prop :=
  ∃ mid l, makeDirs root d = (.ok (), mid) ∧ mid.locate true root = .ok l ∧
    ∃ projects, r.MayRead d projects ∧ ∃ p ∈ projects, p.path = l.path

/-- A path that leads nowhere leads to a known project only if it goes up through what is missing. -/
theorem Orderly.up_of_doubles (orderly : r.Orderly d) {root : Path} (nonempty : root.text ≠ "")
    (absent : d.isThere root = false) (doubles : r.Doubles d root) :
    ".." ∈ root.names ∧ ∀ dir name, d.parentSpot root ≠ .ok (dir, some name) := by
  obtain ⟨mid, l, made, located, projects, read, p, listed, same⟩ := doubles
  obtain ⟨k, old, path⟩ := (orderly.housed projects read).there p listed
  obtain ⟨o, located', directory⟩ := (isDir_iff root).mp (isDir_of_makeDirs nonempty made)
  obtain rfl := Except.ok.inj (located.symm.trans located')
  -- the old directory of the project is the one that the path leads to
  have tree' := ((made_of_makeDirs root d).extended orderly.storable).storable.toIsTree
  rw [made] at tree'
  have proper := tree'.isProper l (by rw [directory]; rfl)
  have proper' := orderly.storable.isProper k (by rw [old]; rfl)
  obtain rfl := Location.path_injective proper' proper (path.trans same)
  exact up_of_taken orderly.storable nonempty absent made located (by simp [old])

/-- A directory that was made is still where its path leads once the starter files are in it. -/
theorem scaffold_eq_ok (storable : d.IsStorable) {root : Path} {title : String}
    (nonempty : root.text ≠ "") (done : scaffold root title d = (.ok (), d')) :
    ∃ mid l, makeDirs root d = (.ok (), mid) ∧ mid.locate true root = .ok l ∧
      d'.locate true root = .ok l ∧ d'.get? l = some .directory := by
  rw [scaffold, bind_eq_ok_iff] at done
  obtain ⟨⟨⟩, mid, made, filled⟩ := done
  have made := (Task.mapError_eq_ok_iff _ _ _).mp made
  obtain ⟨l, located, directory⟩ := (isDir_iff root).mp (isDir_of_makeDirs nonempty made)
  have grown := (made_of_makeDirs root d).extended storable
  have stocked := Starter.write_stocks root title mid
  rw [made] at grown
  rw [filled] at stocked
  have further := stocked grown.storable
  exact ⟨mid, l, made, located, locate_mono further.part further.workDir located,
    further.part.directory l directory⟩

theorem Orderly.establish (orderly : r.Orderly d) (root : Path) (title : String) (now : Int64)
    (nonempty : root.text ≠ "") (single : ¬r.Doubles d root) :
    r.Orderly (r.establish root title now.toInt d).2 := by
  have stocked := scaffold_stocks root title d orderly.storable
  have void : ∀ text ∈ (Starter.files title).map Prod.snd, projectsIn text = [] := by
    intro text listed
    obtain ⟨file, starter, rfl⟩ := List.mem_map.mp listed
    exact Starter.projectsIn_files title file starter
  rw [Registry.establish, bind_apply]
  cases scaffolded : scaffold root title d with
  | mk result mid =>
    rw [scaffolded] at stocked
    have orderly' : r.Orderly mid := orderly.stocked stocked fun text listed => by
      rw [void text listed]
      exact .nil mid
    cases result with
    | error e => exact orderly'
    | ok =>
      dsimp only
      rw [bind_apply, Task.mapError, Task.ask]
      cases asked : mid.canonical root with
      | error fault => exact orderly'
      | ok path =>
        obtain ⟨made, l, ready, before, located, directory⟩ :=
          scaffold_eq_ok orderly.storable nonempty scaffolded
        obtain ⟨k, located', rfl⟩ := (canonical_eq_ok_iff root path).mp asked
        obtain rfl := Except.ok.inj (located'.symm.trans located)
        refine orderly'.append (Project.isTimely_make _ _ _ (isInt64_toInt now))
          (orderly'.list.concat directory rfl fun q listed same => single ?_)
        refine ⟨made, k, ready, before, r.list mid, ?_, q, listed, same⟩
        -- whatever is read now could be read before, since the starter files list nothing
        rcases r.list_cases orderly'.storable with unread | read
        · rw [unread] at listed
          cases listed
        · rcases read.of_stocked stocked with known | ⟨text, starter, unread⟩
          · exact known
          · rw [unread, void text starter] at listed
            cases listed

/-- One call to a registry, if it does not make the directory of a known project anew. -/
theorem Orderly.call (orderly : r.Orderly d) (c : Call)
    (single : ∀ workspace title now, c = .create workspace title now →
      d.isThere (workspace.child title) = false → ¬r.Doubles d (workspace.child title)) :
    r.Orderly (r.call c d).2 := by
  cases c with
  | create workspace title now =>
    rcases r.create_cases workspace title now.toInt d with ⟨e, same⟩ | ⟨open_, absent, whole⟩
    · rw [Registry.call, same]
      exact orderly
    · rw [Registry.call, whole]
      exact orderly.establish _ title now (Path.text_join_ne (name_ne title open_))
        (single workspace title now rfl absent)
  | register home input now =>
    rcases r.register_cases home input now.toInt d with ⟨e, same⟩ | ⟨l, directory, new, same⟩
    · rw [Registry.call, same]
      exact orderly
    · rw [Registry.call, same]
      exact orderly.append (Project.isTimely_make _ _ _ (isInt64_toInt now))
        (orderly.list.concat directory rfl new)

/-- The disks that calls to a registry lead to, which is empty at first. In between, others may do
anything that brings no other list into the place of the registry and leaves the directories of its
projects where they are. -/
inductive Reached (r : Registry) : Disk → Prop
  | empty {d : Disk} : d.IsStorable → (∀ projects, r.MayRead d projects → projects = []) →
      Reached r d
  | call {d : Disk} (c : Call) : Reached r d →
      (∀ workspace title now, c = .create workspace title now →
        d.isThere (workspace.child title) = false → ¬r.Doubles d (workspace.child title)) →
      Reached r (r.call c d).2
  | other {d d' : Disk} : Reached r d → d'.IsStorable →
      (∀ projects, r.MayRead d' projects → projects ≠ [] → r.MayRead d projects ∧
        ∀ p ∈ projects, ∀ l, d.locate true p.path = .ok l → d'.get? l = some .directory) →
      Reached r d'

theorem Reached.orderly (reached : r.Reached d) : r.Orderly d := by
  induction reached with
  | empty storable vacant =>
    refine ⟨storable, fun projects read => ?_⟩
    rw [vacant projects read]
    exact .nil _
  | call c _ single orderly => exact orderly.call c single
  | @other d d' _ storable kept orderly =>
    refine ⟨storable, fun projects read => ?_⟩
    by_cases vacant : projects = []
    · rw [vacant]
      exact .nil d'
    · obtain ⟨before, still⟩ := kept projects read vacant
      refine (orderly.housed projects before).mono fun p listed l path directory => still p listed l ?_
      exact locate_of_path orderly.storable.toIsTree directory path

/-- The directory of a listed project has the path of the project for its canonical path. -/
theorem Orderly.located (orderly : r.Orderly d) (listed : p ∈ r.list d) :
    ∃ l, d.locate true p.path = .ok l ∧ d.get? l = some .directory ∧ l.path = p.path := by
  obtain ⟨l, directory, path⟩ := orderly.list.there p listed
  exact ⟨l, locate_of_path orderly.storable.toIsTree directory path, directory, path⟩

theorem Orderly.pairwise (orderly : r.Orderly d) :
    (r.list d).Pairwise fun p q => p.path.isSameAs q.path = false := by
  have apart := List.pairwise_map.mp orderly.list.apart
  refine apart.imp_of_mem fun {p q} listed listed' differ => ?_
  obtain ⟨l, directory, path⟩ := orderly.list.there p listed
  obtain ⟨k, directory', path'⟩ := orderly.list.there q listed'
  have proper := orderly.storable.isProper l (by rw [directory]; rfl)
  have proper' := orderly.storable.isProper k (by rw [directory']; rfl)
  rw [← path, ← path', ← Bool.not_eq_true, Location.isSameAs_path_iff proper proper']
  rintro rfl
  exact differ (path.symm.trans path')

/-- A known directory is refused, for want of what makes a project or for being known. -/
theorem register_known (r : Registry) {home : Option String} {input : String} {user : UserPath}
    {place : Path} (now : Int) (asked : UserPath.ofInput d home input = .ok user)
    (found : user.directory d = .ok place) (known : (r.list d).any (·.path.isSameAs place) = true) :
    r.register home input now d = (.error (.refused
      (if d.isDir (place.child "src") || d.isFile (place.child "package.json") then
        .projectKnown place else .noProjectIn place)), d) := by
  split
  next marked => rw [register_eq r now asked found marked, if_pos known]
  next bare =>
    unfold register
    rw [bind_apply, Task.ask, asked]
    dsimp only
    rw [bind_apply, Task.ask, found]
    dsimp only
    rw [Task.look_bind, if_neg bare]
    rfl

/-- Whatever calls are made to a registry that is empty at first, its projects have different
directories, which are there, and each is listed by its absolute and canonical path. A directory that
is known is not registered again, however it is spelled. All this holds as long as nobody makes a
project where a path leads to a known project only once the missing directories on its way are
made, which is so for no path but one that goes up through a missing directory. -/
theorem distinct_of_reached (reached : r.Reached d) :
    ((r.list d).Pairwise fun p q => p.path.isSameAs q.path = false) ∧
    (∀ p ∈ r.list d, p.path.isAbsolute = true ∧ d.canonical p.path = .ok p.path ∧
      p.isThere d = true) ∧
    (∀ p ∈ r.list d, ∀ home input user now, UserPath.ofInput d home input = .ok user →
      d.locate true user.expanded = d.locate true p.path →
      r.register home input now d = (.error (.refused
        (if d.isDir (p.path.child "src") || d.isFile (p.path.child "package.json") then
          .projectKnown p.path else .noProjectIn p.path)), d)) ∧
    ∀ root : Path, root.text ≠ "" → d.isThere root = false → r.Doubles d root →
      ".." ∈ root.names ∧ ∀ dir name, d.parentSpot root ≠ .ok (dir, some name) := by
  have orderly := reached.orderly
  refine ⟨orderly.pairwise, fun p listed => ?_, fun p listed home input user now asked same => ?_,
    fun root => orderly.up_of_doubles⟩
  · obtain ⟨l, located, directory, path⟩ := orderly.located listed
    refine ⟨?_, (canonical_eq_ok_iff _ _).mpr ⟨l, located, path⟩,
      (isDir_iff _).mpr ⟨l, located, directory⟩⟩
    rw [← path, l.path_isAbsolute]
  · obtain ⟨l, located, directory, path⟩ := orderly.located listed
    have found := (directory_eq_ok_iff asked p.path).mpr ⟨l, same.trans located, directory, path⟩
    exact r.register_known now asked found
      (List.any_eq_true.mpr ⟨p, listed, by simp [Path.isSameAs]⟩)

theorem onceRegistered_reached : unwritten.Reached onceRegistered := by
  have empty : ∀ projects, unwritten.MayRead sites projects → projects = [] := by
    rintro projects ⟨_, l, text, runnable, -, -, file, -⟩
    have listed := mem_entries_of_get? (d := sites) _ _ file (by simp)
    simp [sites] at listed
  refine .call (.register none "/a/site" 5) (.empty sites_replaceable.storable empty) ?_
  intro _ _ _ same
  cases same

/-- The project stays in the list, and no spelling of its directory is registered again. -/
theorem registered_site_kept : unwritten.list onceRegistered = [.make "site" ⟨"/a/site"⟩ 5] ∧
    (Project.make "site" ⟨"/a/site"⟩ 5).isThere onceRegistered = true ∧
    unwritten.register (some "/a") " ~/../b/./../a/site/ " 6 onceRegistered =
      (.error (.refused (.projectKnown ⟨"/a/site"⟩)), onceRegistered) := by
  obtain ⟨-, listed⟩ := onceRegistered_recorded
  have member : Project.make "site" ⟨"/a/site"⟩ 5 ∈ unwritten.list onceRegistered := by simp [listed]
  obtain ⟨-, there, refused, -⟩ := distinct_of_reached onceRegistered_reached
  obtain ⟨asked, same, marked⟩ :
      UserPath.ofInput onceRegistered (some "/a") " ~/../b/./../a/site/ " =
        .ok ⟨⟨"/a/../b/./../a/site/"⟩, some ⟨"/a/site"⟩⟩ ∧
      onceRegistered.locate true ⟨"/a/../b/./../a/site/"⟩ = onceRegistered.locate true ⟨"/a/site"⟩ ∧
      (onceRegistered.isDir ((Path.mk "/a/site").child "src") ||
        onceRegistered.isFile ((Path.mk "/a/site").child "package.json")) = true := by decide +kernel
  refine ⟨listed, (there _ member).2.2, ?_⟩
  have result := refused _ member (some "/a") " ~/../b/./../a/site/ " _ 6 asked same
  rw [show (Project.make "site" ⟨"/a/site"⟩ 5).path = ⟨"/a/site"⟩ from rfl, if_pos marked] at result
  exact result

theorem onceRegistered_linkless (rest : Location) (target : Path) :
    onceRegistered.get? ("a" :: rest) ≠ some (.link target) := by
  intro found
  have plain : ∀ listed ∈ onceRegistered.entries,
      listed.2 = .directory ∨ listed.1 = ["state", "projects.json"] := by decide +kernel
  rcases plain _ (mem_entries_of_get? _ _ found (by simp)) with same | same <;> simp at same

/-- A new project whose path goes up through a missing directory. -/
def detour : Call := .create ⟨"/a/m/.."⟩ "site" 6

theorem detour_spared : unwritten.Spares ["state", "projects.json"] ⟨detour, onceRegistered⟩ := by
  intro _ _
  have root : (Path.mk "/a/m/..").child "site" = ⟨"/a/m/../site"⟩ := by decide
  dsimp only
  rw [root]
  obtain ⟨located, way, here⟩ :
      (makeDirs ⟨"/a/m/../site"⟩ onceRegistered).2.locate true ⟨"/a/m/../site"⟩ =
        .ok ["a", "site"] ∧
      (makeDirs ⟨"/a/m/../site"⟩ onceRegistered).2.get? ["state", "projects.json"] =
        onceRegistered.get? ["state", "projects.json"] ∧
      onceRegistered.locate true unwritten.file = .ok ["state", "projects.json"] := by
    decide +kernel
  refine liesApart_of_located onceRegistered_recorded.1.storable _ ["a", "site"] _ _ (by decide)
    located (fun rest => onceRegistered_linkless ("site" :: rest)) way ?_
  rintro k (rfl | found)
  · decide
  · rw [here] at found
    cases found
    decide

/-- Such a path leads nowhere and then to a known project, which is registered once more. -/
theorem site_listed_twice : unwritten.Reached onceRegistered ∧ ∃ d',
    unwritten.call detour onceRegistered = (.ok (.make "site" ⟨"/a/site"⟩ 6), d') ∧
    unwritten.list d' = [.make "site" ⟨"/a/site"⟩ 5, .make "site" ⟨"/a/site"⟩ 6] := by
  refine ⟨onceRegistered_reached, ?_⟩
  have answer : (unwritten.call detour onceRegistered).1 = .ok (.make "site" ⟨"/a/site"⟩ 6) := by
    decide +kernel
  obtain ⟨sound, known⟩ := onceRegistered_recorded
  have listed := (call_recorded sound detour detour_spared).2.added _ answer
  rw [known] at listed
  rcases done : unwritten.call detour onceRegistered with ⟨result, d'⟩
  rw [done] at answer listed
  exact ⟨d', by rw [← answer], listed⟩

end Registry

end Workbench
