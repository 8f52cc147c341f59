import Workbench.Proofs.Bundle.Output

/-! What a build changes lies in its output directory, however the build ends, except for the
directories that were missing on the way there. The output path is no link, and it does not go up
out of a missing directory, as it may lead to an old directory once the missing ones are made. -/
namespace Workbench.Bundle.Job

open Disk

variable {d d' : Disk} {o : Location}

/-- At or below where the output path leads, before a build or after it. -/
def IsOutput (job : Job) (d d' : Disk) (k : Location) : Prop :=
  ∃ o, (d.locate true job.out = .ok o ∨ d'.locate true job.out = .ok o) ∧ o <+: k

/-- A directory that was missing on the way to the output path. -/
def IsOnWay (job : Job) (d d' : Disk) (k : Location) : Prop :=
  d.get? k = none ∧ d'.get? k = some .directory ∧
    ∃ front links, front <+: job.out.names ∧ d'.Leads (d.startOf job.out) front links k

/-- The output path leads to a single place, and only that has changed and the way there. -/
structure Confines (job : Job) (d d' : Disk) : Prop where
  unique : ∀ o o', d.locate true job.out = .ok o → d'.locate true job.out = .ok o' → o' = o
  changed : ∀ k, d'.get? k ≠ d.get? k → job.IsOutput d d' k ∨ job.IsOnWay d d' k

variable {job : Job}

theorem Confines.refl (job : Job) (d : Disk) : job.Confines d d := by
  constructor
  · intro o o' located located'
    exact Except.ok.inj (located'.symm.trans located)
  · intro k changed
    exact absurd rfl changed

theorem Confines.of_removed (located : d.locate true job.out = .ok o) (removed : Removed o d d') :
    job.Confines d d' := by
  constructor
  · intro a a' before after
    have still := locate_mono removed.isPartOf removed.workDir.symm after
    exact Except.ok.inj (still.symm.trans before)
  · intro k changed
    left
    refine ⟨o, .inl located, ?_⟩
    by_contra outside
    exact changed (removed.same k outside)

/-- What is made is made on the way to the output path, if that led nowhere. -/
theorem Confines.of_made (absent : ∀ o, d.locate true job.out ≠ .ok o)
    (made : Made job.out d d') : job.Confines d d' := by
  constructor
  · intro o o' located
    exact absurd located (absent o)
  · intro k changed
    right
    cases found : d.get? k with
    | some e => exact absurd ((made.kept k e found).trans found.symm) changed
    | none =>
      have there : (d'.get? k).isSome := by
        rw [Option.isSome_iff_ne_none, ← found]
        exact changed
      obtain ⟨directory, way⟩ := made.made k found there
      exact ⟨found, directory, way⟩

/-- The output directory is empty when it was removed and made again, and nothing else changed. -/
theorem Confines.of_remade (located : d.locate true job.out = .ok o) (below : o ≠ [])
    (fresh : Fresh (d.eraseBelow o) job.out o)
    (made : Made job.out ((d.eraseBelow o).erase o) d') : job.Confines d d' := by
  obtain ⟨same, unique⟩ := fresh.remade below made
  constructor
  · intro a a' before after
    rw [unique a' after]
    exact Except.ok.inj (located.symm.trans before)
  · intro k changed
    left
    refine ⟨o, .inl located, ?_⟩
    by_contra outside
    apply changed
    rw [same k fun here => outside (here ▸ List.prefix_rfl), get?_eraseBelow,
      if_neg fun within => outside within.1]

/-- A path that is no link leads to the entry that it names. -/
theorem locate_real (real : ∀ k target, d.locate false job.out = .ok k →
    d.get? k ≠ some (.link target)) (located : d.locate true job.out = .ok o) :
    d.locate false job.out = .ok o := by
  rcases locate_unfollowed located with same | ⟨k, target, same, link⟩
  · exact same
  · exact absurd link (real k target same)

/-- An output directory that is there is removed and made again, or less of that is done. -/
theorem recreateOut_there (located : d.locate true job.out = .ok o)
    (there : d.isThere job.out = true)
    (real : ∀ k target, d.locate false job.out = .ok k → d.get? k ≠ some (.link target)) :
    (∃ e d', job.recreateOut d = (.error e, d') ∧ (d' = d ∨ Removed o d d')) ∨
      o ≠ [] ∧ Fresh (d.eraseBelow o) job.out o ∧
        job.recreateOut d = makeDirsAt job.out ((d.eraseBelow o).erase o) := by
  have same := locate_real real located
  have gone := removed_of_removeTree job.out d
  unfold recreateOut
  rw [Task.look_bind, if_pos there, bind_apply]
  rcases done : removeTree job.out d with ⟨fault | ⟨⟩, mid⟩
  · left
    refine ⟨.ofFault job.out fault, mid, by rw [Task.mapError, done], ?_⟩
    rw [done] at gone
    refine gone.imp_right ?_
    rintro ⟨l, located', removed⟩
    obtain rfl : o = l := Except.ok.inj (same.symm.trans located')
    exact removed
  · right
    obtain ⟨below, fresh, rfl⟩ := fresh_of_removeTree same (real o · same) done
    exact ⟨below, fresh, by rw [Task.mapError, done]⟩

theorem locate_ne_ok (tree : d.IsTree) (absent : ¬d.isThere job.out = true) (o : Location) :
    d.locate true job.out ≠ .ok o := by
  intro located
  obtain ⟨e, found, -⟩ := locate_plain tree _ _ located
  exact absent ((isThere_iff _).mpr ⟨o, located, by rw [found]; rfl⟩)

theorem recreateOut_absent (absent : ¬d.isThere job.out = true) :
    job.recreateOut d = makeDirsAt job.out d := by
  unfold recreateOut
  rw [Task.look_bind, if_neg absent]

/-- Making the output directory afresh changes nothing but that and the way to it. -/
theorem recreateOut_confines (tree : d.IsTree)
    (real : ∀ k target, d.locate false job.out = .ok k → d.get? k ≠ some (.link target)) :
    job.Confines d (job.recreateOut d).2 := by
  by_cases there : d.isThere job.out = true
  · obtain ⟨o, located, -⟩ := (isThere_iff _).mp there
    rcases recreateOut_there located there real with
      ⟨e, d', failed, rfl | removed⟩ | ⟨below, fresh, remade⟩
    · rw [failed]
      exact .refl job d'
    · rw [failed]
      exact .of_removed located removed
    · rw [remade]
      exact .of_remade located below fresh (made_of_makeDirsAt _ _)
  · rw [recreateOut_absent there]
    exact .of_made (locate_ne_ok tree there) (made_of_makeDirsAt _ _)

/-- The output directory is empty once it was made afresh, if it was there before or its path leads
to nothing old. -/
theorem recreateOut_empty (storable : d.IsStorable)
    (real : ∀ k target, d.locate false job.out = .ok k → d.get? k ≠ some (.link target))
    (clear : d.isThere job.out = true ∨ job.out.text ≠ "" ∧ job.IsSteady d)
    (made : job.recreateOut d = (.ok (), d')) : ∃ o, Fresh d' job.out o := by
  by_cases there : d.isThere job.out = true
  · obtain ⟨o, located, -⟩ := (isThere_iff _).mp there
    rcases recreateOut_there located there real with
      ⟨e, _, failed, -⟩ | ⟨below, fresh, remade⟩
    · rw [failed] at made
      cases made
    · rw [remade] at made
      have way := made_of_makeDirsAt job.out ((d.eraseBelow o).erase o)
      rw [made] at way
      have nonempty : job.out.text ≠ "" := (leads_of_locate located).2.1
      have isDir := isDir_of_makeDirs nonempty ((Task.mapError_eq_ok_iff _ _ _).mp made)
      exact ⟨o, fresh.of_remade below way isDir⟩
  · obtain ⟨nonempty, steady⟩ := clear.resolve_left there
    exact job.recreateOut_fresh storable nonempty steady made

/-- What is done below an empty output directory is confined to it. -/
theorem Confines.of_filled {base : Disk} (storable : base.IsStorable)
    (fresh : Fresh base job.out o) (before : job.Confines d base)
    (filled : Filled o base d') : job.Confines d d' := by
  have located := filled.located storable fresh
  constructor
  · intro a a' was is
    have here := before.unique a o was fresh.located
    rw [← here]
    exact Except.ok.inj (is.symm.trans located)
  · intro k changed
    by_cases within : o <+: k
    · exact .inl ⟨o, .inr located, within⟩
    · have same : d'.get? k = base.get? k := by
        apply filled.same
        rintro rest - rfl
        exact within (List.prefix_append o rest)
      rw [same] at changed
      rcases before.changed k changed with ⟨a, was | is, below⟩ | ⟨missing, directory, way⟩
      · exact .inl ⟨a, .inl was, below⟩
      · -- the place that the path leads to in between is the place that it leads to in the end
        obtain rfl : o = a := Except.ok.inj (fresh.located.symm.trans is)
        exact absurd below within
      · obtain ⟨front, links, begins, leads⟩ := way
        exact .inr ⟨missing, same.trans directory, front, links, begins,
          leads.mono (filled.isPartOf storable fresh)⟩

/-- However a build ends, it has changed nothing but its output directory and the way to it. -/
theorem run_confined (storable : d.IsStorable) (job : Job)
    (real : ∀ k target, d.locate false job.out = .ok k → d.get? k ≠ some (.link target))
    (clear : d.isThere job.out = true ∨ job.out.text ≠ "" ∧ job.IsSteady d) :
    job.Confines d (job.run d).2 := by
  have cleared := recreateOut_confines storable.toIsTree real
  rcases made : job.recreateOut d with ⟨e | ⟨⟩, base⟩
  · -- nothing is done after that
    have ends : (job.run d).2 = base := by
      unfold run
      rw [bind_apply, made]
    rw [ends]
    rwa [made] at cleared
  · obtain ⟨o, fresh⟩ := recreateOut_empty storable real clear made
    have storable' := job.recreateOut_storable storable
    have filled := job.run_keeps (Filled.isKeptBelow storable' (by rwa [made])) d
    rw [made] at cleared storable' filled
    exact cleared.of_filled storable' fresh (filled (fresh.filled storable'))

/-- A project with an old output, in which a link leads out of the project. -/
def linkedOutput : Disk where
  entries :=
    [(["p"], .directory), (["p", "src"], .directory),
      (["p", "src", "App.js"], .file "let a;".toUTF8 false), (["p", "dist"], .directory),
      (["p", "dist", scriptName], .link ⟨"../../kept.txt"⟩),
      (["kept.txt"], .file "kept".toUTF8 false)]
  workDir := []

/-- A build into the old output makes a script bundle in the place of the link, and what the link
led to is kept. -/
theorem link_replaced : linkedOutput.IsStorable ∧
    (∀ k target, linkedOutput.locate false (inside "dist").out = .ok k →
      linkedOutput.get? k ≠ some (.link target)) ∧
    (linkedOutput.isThere (inside "dist").out = true ∨
      (inside "dist").out.text ≠ "" ∧ (inside "dist").IsSteady linkedOutput) ∧
    (inside "dist").Confines linkedOutput ((inside "dist").run linkedOutput).2 ∧
    ((inside "dist").run linkedOutput).2.isFile ((inside "dist").out.child scriptName) = true ∧
    ((inside "dist").run linkedOutput).2.get? ["kept.txt"] =
      some (.file "kept".toUTF8 false) := by
  have storable : linkedOutput.IsStorable := .of_listed (by decide) (by decide)
  have place : linkedOutput.locate false (inside "dist").out = .ok ["p", "dist"] := by decide
  have real (k : Location) (target : Path)
      (located : linkedOutput.locate false (inside "dist").out = .ok k) :
      linkedOutput.get? k ≠ some (.link target) := by
    obtain rfl : ["p", "dist"] = k := Except.ok.inj (place.symm.trans located)
    have directory : linkedOutput.get? ["p", "dist"] = some .directory := by decide
    simp [directory]
  have there : linkedOutput.isThere (inside "dist").out = true := by decide
  refine ⟨storable, real, .inl there, run_confined storable (inside "dist") real (.inl there), ?_⟩
  simp only [run, copyTree, copyListed_eq_copyEach, copyInto_eq_copyDeep]
  decide +kernel

/-- A path that goes up out of a missing directory leads to no output that would be removed. Once
the directory is made it leads to the old output, and the script bundle is written through the
link. -/
theorem link_followed :
    linkedOutput.isThere (inside "x/../dist").out = false ∧
      ((inside "x/../dist").run linkedOutput).1.isOk = true ∧
      ((inside "x/../dist").run linkedOutput).2.locate true (inside "x/../dist").out =
        .ok ["p", "dist"] ∧
      ((inside "x/../dist").run linkedOutput).2.get? ["kept.txt"] ≠
        some (.file "kept".toUTF8 false) := by
  simp only [run, copyTree, copyListed_eq_copyEach, copyInto_eq_copyDeep]
  decide +kernel

end Workbench.Bundle.Job
