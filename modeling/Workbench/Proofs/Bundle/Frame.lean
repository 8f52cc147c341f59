import Workbench.Bundle.Run
import Workbench.Project.Basic
import Workbench.Proofs.Disk.Growth

/-! What a build can change. Whatever the output path is, an entry stays as it is unless the output
path named it or something above it when the build began, or leads to it when the build ends. -/
namespace Workbench.Bundle.Job

open Disk

variable {d : Disk}

/-- The output directory is made afresh by removing what its path names and then making directories
on the way to it. -/
theorem recreateOut_cases (job : Job) (d : Disk) :
    ∃ mid, (mid = d ∨ ∃ removed, d.locate false job.out = .ok removed ∧ Removed removed d mid) ∧
      Made job.out mid (job.recreateOut d).2 := by
  have made (mid : Disk) : Made job.out mid (makeDirsAt job.out mid).2 :=
    made_of_makeDirsAt job.out mid
  unfold recreateOut
  rw [bind_apply]
  by_cases there : d.isThere job.out = true
  · simp only [Task.look, there, if_true, bind_apply]
    have gone := removed_of_removeTree job.out d
    rw [← Task.mapError_snd (Error.ofFault job.out)] at gone
    generalize Task.mapError (Error.ofFault job.out) (removeTree job.out) d = result at gone ⊢
    rcases result with ⟨e | done, mid⟩
    · exact ⟨mid, gone, .refl _ _⟩
    · exact ⟨mid, gone, made mid⟩
  · simp only [Task.look, there]
    exact ⟨d, .inl rfl, made d⟩

theorem recreateOut_storable (job : Job) (storable : d.IsStorable) :
    (job.recreateOut d).2.IsStorable := by
  obtain ⟨mid, rfl | ⟨removed, -, gone⟩, made⟩ := recreateOut_cases job d
  · exact made.storable storable
  · exact made.storable (gone.storable storable)

/-- Making the output directory afresh keeps what is not at or below what its path names. -/
theorem recreateOut_kept (job : Job) (l : Location) (e : Entry) (found : d.get? l = some e) :
    (job.recreateOut d).2.get? l = some e ∨
      ∃ removed, d.locate false job.out = .ok removed ∧ removed <+: l := by
  obtain ⟨mid, rfl | ⟨removed, located, gone⟩, made⟩ := recreateOut_cases job d
  · exact .inl (made.kept l e found)
  · by_cases inside : removed <+: l
    · exact .inr ⟨removed, located, inside⟩
    · exact .inl (made.kept l e (by rw [gone.same l inside, found]))

/-- Making the output directory afresh makes directories only. -/
theorem recreateOut_new (job : Job) (l : Location) (e : Entry)
    (found : (job.recreateOut d).2.get? l = some e) : d.get? l = some e ∨ e = .directory := by
  obtain ⟨mid, before, made⟩ := recreateOut_cases job d
  cases was : mid.get? l with
  | none =>
    have directory := (made.made l was (by simp [found])).1
    rw [found] at directory
    exact .inr (Option.some.inj directory)
  | some old =>
    rw [made.kept l old was] at found
    cases found
    rcases before with rfl | ⟨removed, -, gone⟩
    · exact .inl was
    · exact .inl (gone.part l _ was)

/-- After the output directory was made, a build makes and writes below it only. -/
theorem run_keeps (job : Job) {R : Disk → Disk → Prop} (kept : IsKeptBelow job.out R) (d : Disk) :
    R (job.recreateOut d).2 (job.run d).2 := by
  have text (name content : String) (named : IsName name) :
      Keeps R (writeText (job.out.child name) content) :=
    writeText_keeps kept [name] (Location.isProper_singleton name named) (by simp) content
  unfold run
  rw [bind_apply]
  rcases job.recreateOut d with ⟨e | done, cleared⟩
  · exact kept.refl cleared
  · refine Keeps.bind kept.trans _ _ (Task.Keeps.ask kept.refl _) (fun document => ?_) cleared
    refine Keeps.bind kept.trans _ _ (Task.Keeps.look kept.refl _) fun isDir => ?_
    split
    swap
    · -- without sources nothing is written
      exact fun mid => kept.refl mid
    refine Keeps.bind kept.trans _ _ (Task.Keeps.ask kept.refl _) fun sources => ?_
    refine Keeps.bind kept.trans _ _ (Task.Keeps.ask kept.refl _) fun script => ?_
    refine Keeps.bind kept.trans _ _ (text _ _ (by decide)) fun _ => ?_
    refine Keeps.bind kept.trans _ _ (Task.Keeps.ask kept.refl _) fun style => ?_
    refine Keeps.optional kept.trans _ _ () _ (text _ _ (by decide)) fun _ => ?_
    refine Keeps.bind kept.trans _ _ (text _ _ (by decide)) fun _ => ?_
    refine Keeps.bind kept.trans _ _ (Task.Keeps.look kept.refl _) fun isDir => ?_
    have counted (copied : Nat) : Keeps R (do
        let written ← (Task.look (countFiles · job.out) : Task Error Nat)
        return (⟨orderScripts sources.1, sources.2, style.getD "" ≠ "", copied, written⟩ : Report)) :=
      Keeps.bind kept.trans _ _ (Task.Keeps.look kept.refl _) fun _ => Keeps.pure kept.refl _
    split
    · exact Keeps.bind kept.trans _ _ (copyTree_keeps kept _ _) counted
    · exact counted 0

theorem run_grows (job : Job) (d : Disk) :
    Grows job.out (job.recreateOut d).2 (job.run d).2 :=
  job.run_keeps Grows.isKeptBelow d

/-- Only what the output path named, or what it leads to in the end, is not as it was. -/
theorem changed_by_run (storable : d.IsStorable) (job : Job) (l : Location) (e : Entry)
    (found : d.get? l = some e) (changed : (job.run d).2.get? l ≠ some e) :
    (∃ removed, d.locate false job.out = .ok removed ∧ removed <+: l) ∨
      ((job.run d).2.Reaches job.out l ∧
        ∀ o, (job.recreateOut d).2.locate true job.out = .ok o →
          (job.recreateOut d).2.namesAt o = [] → o <+: l) := by
  rcases job.recreateOut_kept l e found with kept | removed
  · right
    have cleared := job.recreateOut_storable storable
    have grown := job.run_grows d cleared
    obtain ⟨names, proper, located⟩ := (grown.kept l e kept).resolve_left changed
    refine ⟨⟨names, proper, located⟩, fun o made empty => ?_⟩
    -- no link lies below the new directory, and no link is made by a build
    have linkless : ∀ rest, rest ≠ [] → ∀ target,
        (job.run d).2.get? (o ++ rest) ≠ some (.link target) := by
      intro rest nonempty target found
      have was := grown.link _ target found
      rw [cleared.none_below_of_namesAt o rest empty nonempty] at was
      cases was
    have down := eq_of_locate_under (locate_mono grown.part grown.workDir made) names proper
      linkless l located
    rw [down]
    exact List.prefix_append o names
  · exact .inl removed

/-- A project with a single script. -/
def scriptOnly : Disk where
  entries :=
    [(["p"], .directory), (["p", "src"], .directory),
      (["p", "src", "App.js"], .file "let a;".toUTF8 false)]
  workDir := []

/-- The project built into one of its own directories. -/
def inside (dir : String) : Job := ⟨⟨"/p"⟩, (Project.make "p" ⟨"/p"⟩ 0).outputDir dir⟩

/-- Built into the directory of its sources, the project loses its script. -/
theorem script_lost :
    scriptOnly.get? ["p", "src", "App.js"] = some (.file "let a;".toUTF8 false) ∧
      ((inside "src").run scriptOnly).2.get? ["p", "src", "App.js"] = none :=
  ⟨by decide, by decide +kernel⟩

/-- The script that is lost lies below what the output path named. -/
theorem lost_script_named :
    scriptOnly.IsStorable ∧ ((∃ removed, scriptOnly.locate false (inside "src").out = .ok removed ∧
      removed <+: ["p", "src", "App.js"]) ∨
      ((inside "src").run scriptOnly).2.Reaches (inside "src").out ["p", "src", "App.js"] ∧
        ∀ o, ((inside "src").recreateOut scriptOnly).2.locate true (inside "src").out = .ok o →
          ((inside "src").recreateOut scriptOnly).2.namesAt o = [] →
            o <+: ["p", "src", "App.js"]) := by
  have storable : scriptOnly.IsStorable := .of_listed (by decide) (by decide)
  have found : scriptOnly.get? ["p", "src", "App.js"] = some (.file "let a;".toUTF8 false) := by
    decide
  have changed : ((inside "src").run scriptOnly).2.get? ["p", "src", "App.js"] ≠
      some (.file "let a;".toUTF8 false) := by
    decide +kernel
  exact ⟨storable, changed_by_run storable (inside "src") _ _ found changed⟩

end Workbench.Bundle.Job
