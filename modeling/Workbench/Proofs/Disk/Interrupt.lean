import Mathlib.Logic.Relation
import Workbench.Proofs.Disk.Swap

/-!
# Replacements that are broken off

A replacement may end at any point: a call fails, or the program is gone between two calls or inside
one. Until the temporary file is given its name, the file is what it was, and so is everything else
but the temporary file and the directories that were made. From then on it is what was written.
-/
namespace Workbench

open Workbench.Path (temporaryName)

namespace Path

/-- The last step of a temporary path is a temporary name. -/
theorem exists_temporary_names (p : Path) :
    ∃ front name, p.temporary.names = front ++ [temporaryName name] := by
  have child (q : Path) (name : String) (free : '/' ∉ name.toList) :
      (q.child (temporaryName name)).names = q.names ++ [temporaryName name] := by
    rw [Path.child, names_join _ (isAbsolute_temporaryName name), names_temporaryName name free]
  have named (name : String) (last : p.fileName? = some name) : '/' ∉ name.toList := by
    unfold fileName? at last
    split at last
    next segment found =>
      split at last
      · cases last
      · cases last
        have listed := p.isPrefix_trimmedBody.subset (List.mem_of_getLast? found)
        simpa using p.notMem_body segment listed
    next => cases last
  unfold temporary withFileName
  cases last : p.fileName? with
  | none => exact ⟨p.names, "", child p "" (by simp)⟩
  | some name =>
    have free := named name last
    cases p.parent? with
    | none => exact ⟨p.names, name, child p name free⟩
    | some parent => exact ⟨parent.names, name, child parent name free⟩

end Path

namespace Disk

variable {d d' mid : Disk} {p q : Path} {l k : Location}

/-- The location of the entry that a path names, whether it is there or not. A link is named
itself. -/
def named? (d : Disk) (p : Path) : Option Location :=
  match d.parentSpot p with
  | .ok (dir, some name) => some (dir ++ [name])
  | _ => none

theorem named?_eq_some_iff (p : Path) (l : Location) : d.named? p = some l ↔
    ∃ dir name, d.parentSpot p = .ok (dir, some name) ∧ l = dir ++ [name] := by
  unfold named?
  constructor
  · intro named
    split at named
    next dir name spotted => exact ⟨dir, name, spotted, (Option.some.inj named).symm⟩
    next => cases named
  · rintro ⟨dir, name, spotted, rfl⟩
    rw [spotted]

/-- The disk once the directories on the way to a path are made, as far as they can be. -/
def withParents (d : Disk) (p : Path) : Disk :=
  match p.parent? with
  | some q => (makeDirs q d).2
  | none => d

theorem made_withParents (p : Path) (d : Disk) : Made p d (d.withParents p) := by
  unfold withParents
  split
  next q parent => exact (made_of_makeDirs q d).of_parent q parent
  next => exact .refl p d

/-- The location of the entry that a path names once the directories on its way are made. -/
def place? (d : Disk) (p : Path) : Option Location := (d.withParents p).named? p

/-- The location of the temporary file for a path. -/
def sibling? (d : Disk) (p : Path) : Option Location := (d.withParents p).named? p.temporary

/-- What the temporary path of a file names lies beside the file. -/
theorem eq_of_named?_temporary {dir : Location} {name : String}
    (spotted : d.parentSpot p = .ok (dir, some name)) (named : d.named? p.temporary = some l) :
    l = dir ++ [temporaryName name] ∧ (temporaryName name).utf8ByteSize ≤ nameLimit := by
  obtain ⟨dir', temp, spotted', rfl⟩ := (named?_eq_some_iff p.temporary l).mp named
  obtain ⟨-, -, -, ⟨here, up, -⟩, front, names, -⟩ := (parentSpot_eq_ok_iff dir name).mp spotted
  obtain ⟨-, -, -, ⟨-, -, short⟩, front', names', -⟩ := (parentSpot_eq_ok_iff dir' temp).mp spotted'
  have beside := Path.beside_temporary names here up (isName_of_parentSpot spotted).no_slash
  obtain ⟨above, dots, -, -, both⟩ := beside.names
  obtain rfl : temp = temporaryName name :=
    List.singleton_inj.mp (List.append_inj' (names'.symm.trans both) rfl).2
  rw [parentSpot_temporary spotted short] at spotted'
  cases spotted'
  exact ⟨rfl, short⟩

theorem sibling?_ne_place? (placed : d.place? p = some l) : d.sibling? p ≠ some l := by
  intro beside
  obtain ⟨dir, name, spotted, rfl⟩ := (named?_eq_some_iff p l).mp placed
  have same := (eq_of_named?_temporary spotted beside).1
  exact Path.temporaryName_ne name (List.singleton_inj.mp (List.append_inj' same rfl).2).symm

/-- One directory was made, at a path or above it. -/
def MakesOne (p : Path) (d d' : Disk) : Prop :=
  ∃ q, Relation.ReflTransGen (fun r s => r.parent? = some s) p q ∧ d.makeDir q = .ok d'

theorem MakesOne.of_parent (parent : p.parent? = some q) (one : MakesOne q d d') :
    MakesOne p d d' := by
  obtain ⟨r, above, made⟩ := one
  exact ⟨r, .head parent above, made⟩

theorem MakesOne.made (one : MakesOne p d d') : Made p d d' := by
  obtain ⟨q, above, made⟩ := one
  induction above using Relation.ReflTransGen.head_induction_on with
  | refl => exact made_of_makeDir made
  | head parent _ ih => exact ih.of_parent _ parent

theorem made_of_makes (makes : Relation.ReflTransGen (MakesOne p) d d') : Made p d d' := by
  induction makes with
  | refl => exact .refl p d
  | tail _ one ih => exact ih.trans one.made

/-- Directories are made one by one. -/
theorem makeDirsWithin_makes (n : Nat) (p : Path) (d : Disk) :
    Relation.ReflTransGen (MakesOne p) d (makeDirsWithin n p d).2 := by
  have one (p : Path) (d d' : Disk) (made : d.makeDir p = .ok d') : MakesOne p d d' :=
    ⟨p, .refl, made⟩
  induction n generalizing p d with
  | zero => exact .refl
  | succ n ih =>
    -- first the directories above, then the one at the path
    have makes (q : Path) (parent : p.parent? = some q) (result : Except Fault Unit) (mid : Disk)
        (above : makeDirsWithin n q d = (result, mid)) :
        Relation.ReflTransGen (MakesOne p) d mid := by
      have upper := Relation.ReflTransGen.mono (p := MakesOne p)
        (fun _ _ => MakesOne.of_parent parent) _ _ (ih q d)
      rwa [above] at upper
    cases done : makeDirsWithin (n + 1) p d with
    | mk result d' =>
      cases making_of_makeDirsWithin done with
      | one _ here => exact .single (one p d _ here)
      | stays => exact .refl
      | blocked q parent _ _ above => exact makes q parent _ _ above
      | last q parent mid _ above here => exact (makes q parent _ mid above).tail (one p mid _ here)
      | reached q parent _ above => exact makes q parent _ _ above

end Disk

namespace WriteStep

/-- What a step may have done to the disk when it is broken off. A file is opened and renamed at
once, while any number of bytes may have been written. -/
def Leaves : WriteStep → Disk → Disk → Prop
  | .makeDirs p, d, d' => Relation.ReflTransGen (Disk.MakesOne p) d d'
  | .openEmpty p, d, d' => d' = d ∨ (d.openForWriting true p).map Prod.snd = .ok d'
  | .append p bytes, d, d' => d' = d ∨ ∃ count, appendTo p (bytes.extract 0 count) d = .ok d'
  | .settle _, d, d' | .rename _ _, d, d' => d' = d

/-- What a list of steps may have done to the disk when it is broken off inside one of them. -/
inductive BreaksOff : List WriteStep → Disk → Disk → Prop where
  | inside {step : WriteStep} {d d' : Disk} (rest : List WriteStep) (leaves : step.Leaves d d') :
    BreaksOff (step :: rest) d d'
  | behind {step : WriteStep} {rest : List WriteStep} {d mid d' : Disk}
    (ran : step.run d = (.ok (), mid)) (later : BreaksOff rest mid d') :
    BreaksOff (step :: rest) d d'

variable {d d' : Disk} {steps : List WriteStep}

theorem Leaves.nothing (step : WriteStep) (d : Disk) : step.Leaves d d := by
  cases step with
  | makeDirs p => exact .refl
  | openEmpty p => exact .inl rfl
  | append p bytes => exact .inl rfl
  | settle p => exact rfl
  | rename source target => exact rfl

/-- A step that fails is broken off. -/
theorem leaves_of_error (step : WriteStep) (fault : Fault) (failed : step.run d = (.error fault, d')) :
    step.Leaves d d' := by
  have idle (f : Disk → Except Fault Disk) (failed : Task.change f d = (.error fault, d')) :
      d' = d := by
    unfold Task.change at failed
    split at failed <;> cases failed
    rfl
  cases step with
  | makeDirs p =>
    have makes := Disk.makeDirsWithin_makes p.components.length p d
    rw [← Disk.makeDirs, show Disk.makeDirs p d = _ from failed] at makes
    exact makes
  | openEmpty p =>
    rw [run] at failed
    exact .inl (idle _ failed)
  | append p bytes =>
    rw [run] at failed
    exact .inl (idle _ failed)
  | settle p => cases failed
  | rename source target =>
    rw [run] at failed
    exact idle _ failed

/-- Steps that end with an error are broken off. -/
theorem breaksOff_of_error (e : Error) (failed : runAll steps d = (.error e, d')) :
    BreaksOff steps d d' := by
  induction steps generalizing d with
  | nil => cases failed
  | cons step rest ih =>
    rw [Disk.runAll_cons] at failed
    rcases ran : step.run d with ⟨fault | ⟨⟩, mid⟩
    · rw [ran] at failed
      cases failed
      exact .inside rest (leaves_of_error step fault ran)
    · rw [ran] at failed
      exact .behind ran (ih failed)

/-- Steps that stop before the last of them are broken off. -/
theorem breaksOff_of_front (front rest : List WriteStep) (more : rest ≠ [])
    (ran : runAll front d = (.ok (), d')) : BreaksOff (front ++ rest) d d' := by
  induction front generalizing d with
  | nil =>
    obtain ⟨step, rest, rfl⟩ := List.exists_cons_of_ne_nil more
    cases ran
    exact .inside rest (.nothing step _)
  | cons step front ih =>
    obtain ⟨mid, first, later⟩ := (runAll_cons_iff step front d d').mp ran
    exact .behind first (ih later)

theorem breaksOff_cons_iff (step : WriteStep) (rest : List WriteStep) :
    BreaksOff (step :: rest) d d' ↔
      step.Leaves d d' ∨ ∃ mid, step.run d = (.ok (), mid) ∧ BreaksOff rest mid d' := by
  constructor
  · intro broken
    cases broken with
    | inside _ leaves => exact .inl leaves
    | behind ran later => exact .inr ⟨_, ran, later⟩
  · rintro (leaves | ⟨mid, ran, later⟩)
    · exact .inside rest leaves
    · exact .behind ran later

end WriteStep

end Workbench
