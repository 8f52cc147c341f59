import Mathlib.Data.Prod.Basic
import Workbench.Console.Run
import Workbench.Proofs.Project.Calls
/-!
# Projects by their names

Names are not checked against those of other projects. A name means the project that was registered
first under it, so that a project is known by its name only as long as the name is its own.
-/
namespace Workbench

open Disk

namespace Registry

variable {r : Registry} {d d' : Disk} {p q : Project} {c : Call}

/-- The disk on which a call adds its project to the registry. -/
def basis : Call → Disk → Disk
  | .create workspace title _, d => (scaffold (workspace.child title) title d).2
  | .register .., d => d

/-- A call that returns a project has added it to what the registry held. -/
theorem call_eq_ok (result : r.call c d = (.ok p, d')) :
    p.IsTimely ∧ r.save (r.list (basis c d) ++ [p]) (basis c d) = (.ok (), d') := by
  cases c with
  | create workspace title now =>
    rcases r.create_cases workspace title now.toInt d with ⟨e, refused⟩ | ⟨-, -, whole⟩
    · rw [call, refused] at result
      cases result
    · rw [call, whole] at result
      obtain ⟨mid, path, scaffolded, -, rfl, saved⟩ := establish_eq_ok result
      rw [basis, scaffolded]
      exact ⟨Project.isTimely_make _ _ _ (isInt64_toInt now), saved⟩
  | register home input now =>
    rcases r.register_cases home input now.toInt d with ⟨e, refused⟩ | ⟨l, -, -, appended⟩
    · rw [call, refused] at result
      cases result
    · rw [call, appended] at result
      obtain ⟨rfl, saved⟩ := append_eq_ok result
      exact ⟨Project.isTimely_make _ _ _ (isInt64_toInt now), saved⟩

/-- The first of some projects with a name, when one more is listed behind them. -/
theorem find?_concat (known : List Project) (p : Project) :
    (known ++ [p]).find? (·.name = p.name) = some ((known.find? (·.name = p.name)).getD p) := by
  rw [List.find?_append]
  cases known.find? (·.name = p.name) <;> simp

theorem find?_of_list (listed : r.list d' = r.list d ++ [p]) :
    r.find? d' p.name = some ((r.find? d p.name).getD p) := by
  rw [find?, listed, find?_concat, find?]

/-- A project that is known by a name is the one that the user means by it. -/
theorem findProject_of_find? {h : Host} (found : r.find? h.disk p.name = some q) :
    Console.findProject r h p.name = .ok q := by
  rw [Console.findProject, found]

/-- After a call that returns a project, its name means the first project that was listed with it,
which is the new one if there is none before it, as long as the file of the registry can be read. It
can if the new file was made without the entry that it replaces, and then the projects before are
those that were listed when the file was made. Where the registry keeps to its place and the call
spares it, they are those that were listed before the call. -/
theorem find?_after_call (result : r.call c d = (.ok p, d')) :
    (r.find? d' p.name =
      if (basis c d).IsApart r.file (encode (r.list (basis c d) ++ [p])).toUTF8 then
        some ((r.find? (basis c d) p.name).getD p)
      else none) ∧
    (∀ dir name, Replaceable d r.file dir name → r.Spares (dir ++ [name]) ⟨c, d⟩ →
      r.find? d' p.name = some ((r.find? d p.name).getD p)) ∧
    ∀ h : Host, h.disk = d' → ∀ q, r.find? d' p.name = some q →
      Console.findProject r h p.name = .ok q := by
  obtain ⟨timely, saved⟩ := call_eq_ok result
  refine ⟨?_, fun dir name sound spares => ?_, fun h after q found => ?_⟩
  · have known := r.timely_of_list_concat (d := basis c d) timely
    have listed := r.list_save _ known saved
    split at listed
    next apart =>
      rw [if_pos apart]
      exact find?_of_list listed
    next lost =>
      rw [if_neg lost, find?, listed, List.find?_nil]
  · obtain ⟨-, recorded⟩ := call_recorded sound c spares
    have added := recorded.added p (by rw [result])
    rw [result] at added
    exact find?_of_list added
  · subst after
    exact findProject_of_find? found

/-- Two directories of the same name. -/
def sites : Disk where
  entries := [(["a"], .directory), (["a", "site"], .directory), (["a", "site", "src"], .directory),
    (["b"], .directory), (["b", "site"], .directory), (["b", "site", "src"], .directory)]
  workDir := []

theorem sites_linkless (l : Location) (target : Path) : sites.get? l ≠ some (.link target) :=
  get?_ne_link (by simp [sites]) l target

theorem sites_replaceable : Replaceable sites unwritten.file ["state"] "projects.json" where
  storable := .of_listed (by decide) (by decide)
  aims := ⟨by decide, by decide, ⟨by decide, by decide, by decide⟩, [], ["state"], 0, [], by decide,
    Nat.zero_le _, .arrive _, by decide, ⟨by decide, fun _ _ _ _ => sites_linkless _ _⟩, by decide⟩
  live target found := absurd found (sites_linkless _ target)
  temporary := sites_linkless _

/-- The two directories after the first of them was registered. -/
def onceRegistered : Disk := (unwritten.call (.register none "/a/site" 5) sites).2

theorem first_site_registered : unwritten.call (.register none "/a/site" 5) sites =
    (.ok (.make "site" ⟨"/a/site"⟩ 5), onceRegistered) := by
  have answer : (unwritten.call (.register none "/a/site" 5) sites).1 =
      .ok (.make "site" ⟨"/a/site"⟩ 5) := by decide +kernel
  rw [onceRegistered]
  exact Prod.fst_eq_iff.mp answer

/-- The first directory is found by its name. -/
theorem first_site_found :
    unwritten.call (.register none "/a/site" 5) sites =
      (.ok (.make "site" ⟨"/a/site"⟩ 5), onceRegistered) ∧
    unwritten.find? onceRegistered "site" = some (.make "site" ⟨"/a/site"⟩ 5) := by
  have nobody : unwritten.find? sites "site" = none := by decide
  obtain ⟨-, found, -⟩ := find?_after_call first_site_registered
  have first := found ["state"] "projects.json" sites_replaceable trivial
  rw [show (Project.make "site" ⟨"/a/site"⟩ 5).name = "site" from rfl, nobody] at first
  exact ⟨first_site_registered, first⟩

theorem onceRegistered_recorded :
    Replaceable onceRegistered unwritten.file ["state"] "projects.json" ∧
      unwritten.list onceRegistered = [.make "site" ⟨"/a/site"⟩ 5] := by
  obtain ⟨sound, recorded⟩ := call_recorded sites_replaceable (.register none "/a/site" 5) trivial
  have known := recorded.added _ (Prod.fst_eq_iff.mpr first_site_registered)
  rw [first_site_registered] at sound known
  dsimp only at sound known
  rw [show unwritten.list sites = [] by decide, List.nil_append] at known
  exact ⟨sound, known⟩

/-- The second directory is registered as well, and its name means the first. -/
theorem second_site_hidden :
    ∃ p d', unwritten.call (.register none "/b/site" 6) onceRegistered = (.ok p, d') ∧
      p.path = ⟨"/b/site"⟩ ∧ unwritten.find? d' p.name = some (.make "site" ⟨"/a/site"⟩ 5) := by
  obtain ⟨sound, known⟩ := onceRegistered_recorded
  obtain ⟨asked, found, marked⟩ :
      UserPath.ofInput onceRegistered none "/b/site" = .ok ⟨⟨"/b/site"⟩, some ⟨"/b/site"⟩⟩ ∧
      UserPath.directory ⟨⟨"/b/site"⟩, some ⟨"/b/site"⟩⟩ onceRegistered = .ok ⟨"/b/site"⟩ ∧
      (onceRegistered.isDir ((Path.mk "/b/site").child "src") ||
        onceRegistered.isFile ((Path.mk "/b/site").child "package.json")) = true := by
    decide +kernel
  have unknown : ¬(unwritten.list onceRegistered).any (·.path.isSameAs ⟨"/b/site"⟩) = true := by
    rw [known]
    decide
  have saved : (unwritten.save (unwritten.list onceRegistered ++ [.ofDir ⟨"/b/site"⟩ 6])
      onceRegistered).1 = .ok () := by
    rw [known]
    decide +kernel
  have second : unwritten.call (.register none "/b/site" 6) onceRegistered =
      unwritten.append (.ofDir ⟨"/b/site"⟩ 6) onceRegistered := by
    have now : (6 : Int64).toInt = 6 := by decide
    rw [call, register_eq unwritten _ asked found marked, if_neg unknown, now]
  have result := append_of_saved saved
  rw [← second] at result
  have listed := (call_recorded sound (.register none "/b/site" 6) trivial).2.added _ result
  rcases done : unwritten.call (.register none "/b/site" 6) onceRegistered with ⟨answer, d'⟩
  rw [done] at result listed
  refine ⟨.ofDir ⟨"/b/site"⟩ 6, d', Prod.ext result rfl, rfl, ?_⟩
  rw [find?, listed, known]
  decide

end Registry

end Workbench
