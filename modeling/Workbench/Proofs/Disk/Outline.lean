import Workbench.Disk.Outline
import Workbench.Proofs.Disk.Listing
import Workbench.Proofs.Disk.Swap

/-! Outlines. Every directory has one, and two disks that show the same names in the same
directories have the same ones. -/
namespace Workbench

namespace Outline

theorem precedes_iff (a b : String × Bool) :
    precedes a b = true ↔ a.2 = b.2 ∧ a.1 ≤ b.1 ∨ a.2 = true ∧ b.2 = false := by
  unfold precedes
  rcases a with ⟨a, _ | _⟩ <;> rcases b with ⟨b, _ | _⟩ <;> simp

theorem precedes_trans (a b c : String × Bool) (first : precedes a b = true)
    (second : precedes b c = true) : precedes a c = true := by
  rw [precedes_iff] at *
  rcases first with ⟨same, le⟩ | ⟨dir, file⟩
  · rcases second with ⟨same', le'⟩ | ⟨dir', file'⟩
    · exact .inl ⟨same.trans same', String.le_trans le le'⟩
    · exact .inr ⟨same.trans dir', file'⟩
  · rcases second with ⟨same', -⟩ | ⟨dir', -⟩
    · exact .inr ⟨dir, same' ▸ file⟩
    · simp [file] at dir'

theorem precedes_total (a b : String × Bool) : (precedes a b || precedes b a) = true := by
  rw [Bool.or_eq_true, precedes_iff, precedes_iff]
  rcases String.le_total a.1 b.1 with le | le
  · cases first : a.2 <;> cases second : b.2 <;> simp [le]
  · cases first : a.2 <;> cases second : b.2 <;> simp [le]

/-- Of two entries only one comes before the other. -/
theorem eq_of_precedes (a b : String × Bool) (first : precedes a b = true)
    (second : precedes b a = true) : a = b := by
  rw [precedes_iff] at first second
  rcases first with ⟨same, le⟩ | ⟨dir, file⟩
  · rcases second with ⟨-, le'⟩ | ⟨dir', file'⟩
    · exact Prod.ext (String.le_antisymm le le') same
    · rw [dir', file'] at same
      cases same
  · rcases second with ⟨same', -⟩ | ⟨dir', file'⟩
    · rw [dir, file] at same'
      cases same'
    · rw [file] at dir'
      cases dir'

/-- The order of entries does not depend on the order in which they were read. -/
theorem mergeSort_eq_of_perm (entries entries' : List (String × Bool))
    (perm : entries.Perm entries') :
    entries.mergeSort precedes = entries'.mergeSort precedes := by
  apply List.Perm.eq_of_pairwise
  · intro a b _ _ first second
    exact eq_of_precedes a b first second
  · exact List.pairwise_mergeSort precedes_trans precedes_total entries
  · exact List.pairwise_mergeSort precedes_trans precedes_total entries'
  · exact (List.mergeSort_perm _ _).trans (perm.trans (List.mergeSort_perm _ _).symm)

end Outline

namespace Disk

open Workbench.Path (temporaryName)

variable {d d' : Disk} {p : Path} {dir : Location} {name : String}

theorem readNames_of_directory {l : Location} (located : d.locate true p = .ok l)
    (directory : d.get? l = some .directory) : d.readNames p = .ok (d.namesAt l) := by
  simp [readNames, located, directory, bind, Except.bind]

theorem nodup_namesAt (tree : d.IsTree) (l : Location) : (d.namesAt l).Nodup :=
  (List.mergeSort_perm _ _).nodup_iff.mp (nodup_sortNames tree l)

/-- A shown entry is marked as a directory exactly if it leads to one. -/
theorem mem_shownIn (dir : Path) (names : List String) (entry : String × Bool) :
    entry ∈ d.shownIn dir names ↔
      entry.1 ∈ names ∧ Outline.hides entry.1 = false ∧ entry.2 = d.isDir (dir.child entry.1) := by
  rw [shownIn, (List.mergeSort_perm _ _).mem_iff, List.mem_map]
  constructor
  · rintro ⟨name, listed, rfl⟩
    obtain ⟨listed, shown⟩ := List.mem_filter.mp listed
    exact ⟨listed, by simpa using shown, rfl⟩
  · rintro ⟨listed, shown, marked⟩
    exact ⟨entry.1, List.mem_filter.mpr ⟨listed, by simpa using shown⟩, Prod.ext rfl marked.symm⟩

theorem exists_mapM_eq_ok {ε α β : Type} (f : α → Except ε β) (xs : List α)
    (each : ∀ x ∈ xs, ∃ y, f x = .ok y) : ∃ ys, xs.mapM f = .ok ys := by
  induction xs with
  | nil => exact ⟨[], rfl⟩
  | cons x xs ih =>
    obtain ⟨y, first⟩ := each x List.mem_cons_self
    obtain ⟨ys, rest⟩ := ih fun x later => each x (List.mem_cons_of_mem _ later)
    exact ⟨y :: ys, by rw [List.mapM_cons, first, rest]; rfl⟩

theorem mapM_congr_left {ε α β : Type} (f g : α → Except ε β) (xs : List α)
    (each : ∀ x ∈ xs, f x = g x) : xs.mapM f = xs.mapM g := by
  induction xs with
  | nil => rfl
  | cons x xs ih =>
    rw [List.mapM_cons, List.mapM_cons, each x List.mem_cons_self,
      ih fun x later => each x (List.mem_cons_of_mem _ later)]

/-- Every directory has an outline, whatever lies below it. -/
theorem exists_outlineLevel (levels : Nat) (directory : d.isDir p = true) :
    ∃ tree, d.outlineLevel levels p = .ok tree := by
  -- only entries that are directories are looked into, so the induction is on the levels
  induction levels generalizing p with
  | zero => exact ⟨[], rfl⟩
  | succ levels ih =>
    obtain ⟨l, located, found⟩ := (isDir_iff p).mp directory
    rw [outlineLevel, readNames_of_directory located found]
    apply exists_mapM_eq_ok
    rintro ⟨name, isDirectory⟩ shown
    obtain ⟨-, -, marked⟩ := (mem_shownIn p _ _).mp shown
    cases isDirectory with
    | false => exact ⟨_, rfl⟩
    | true =>
      obtain ⟨children, inner⟩ := ih marked.symm
      refine ⟨.node name (p.child name) true children, ?_⟩
      simp [inner, bind, Except.bind, pure, Except.pure]

theorem isThere_of_isDir (directory : d.isDir p = true) : d.isThere p = true := by
  obtain ⟨l, located, found⟩ := (isDir_iff p).mp directory
  exact (isThere_iff p).mpr ⟨l, located, by rw [found]; rfl⟩

/-- A path leads to a directory or to nothing. -/
def IsRoot (d : Disk) (p : Path) : Prop := d.isThere p = true → d.isDir p = true

theorem exists_outline (root : d.IsRoot p) : ∃ tree, d.outline p = .ok tree := by
  unfold outline
  by_cases there : d.isThere p = true
  · rw [if_pos there]
    exact exists_outlineLevel _ (root there)
  · rw [if_neg there]
    exact ⟨[], rfl⟩

/-- What no longer leads to the directory that it led to leads nowhere. -/
theorem IsRoot.of_part (root : d.IsRoot p) (part : d'.IsPartOf d) (work : d.workDir = d'.workDir)
    (kept : ∀ l, d.locate true p = .ok l → d.get? l = some .directory → (d'.get? l).isSome →
      d'.get? l = some .directory) : d'.IsRoot p := by
  intro there
  obtain ⟨l, located, found⟩ := (isThere_iff p).mp there
  have before := locate_mono part work located
  have there : d.isThere p = true := by
    obtain ⟨e, found⟩ := Option.isSome_iff_exists.mp found
    obtain ⟨e', found', -⟩ := part l e found
    exact (isThere_iff p).mpr ⟨l, before, by rw [found']; rfl⟩
  obtain ⟨k, located', directory⟩ := (isDir_iff p).mp (root there)
  rw [before] at located'
  cases located'
  exact (isDir_iff p).mpr ⟨l, located, kept l before directory found⟩

/-- Two disks that an outline cannot tell apart. -/
structure LooksLike (d d' : Disk) : Prop where
  leads : ∀ p l, d'.locate true p = .ok l ∧ d'.get? l = some .directory ↔
    d.locate true p = .ok l ∧ d.get? l = some .directory
  shown : ∀ l name, Outline.hides name = false →
    ((d'.get? (l ++ [name])).isSome ↔ (d.get? (l ++ [name])).isSome)
  depth : d'.depth = d.depth

namespace LooksLike

variable (alike : LooksLike d d') (tree : d.IsTree) (tree' : d'.IsTree)
include alike

theorem isDir_eq (p : Path) : d'.isDir p = d.isDir p := by
  rw [Bool.eq_iff_iff, isDir_iff, isDir_iff]
  exact exists_congr fun l => alike.leads p l

include tree tree'

theorem perm_names (l : Location) : ((d'.namesAt l).filter fun name => !Outline.hides name).Perm
    ((d.namesAt l).filter fun name => !Outline.hides name) := by
  apply (List.perm_ext_iff_of_nodup ((nodup_namesAt tree' l).filter _)
    ((nodup_namesAt tree l).filter _)).mpr
  intro name
  rw [List.mem_filter, List.mem_filter, mem_namesAt, mem_namesAt, Bool.not_eq_true']
  exact and_congr_left fun shown => alike.shown l name shown

theorem shownIn_eq (dir : Path) (l : Location) :
    d'.shownIn dir (d'.namesAt l) = d.shownIn dir (d.namesAt l) := by
  have marks : (fun name => (name, d'.isDir (dir.child name))) =
      fun name => (name, d.isDir (dir.child name)) := by
    funext name
    rw [alike.isDir_eq]
  rw [shownIn, shownIn, marks]
  exact Outline.mergeSort_eq_of_perm _ _ ((alike.perm_names tree tree' l).map _)

theorem outlineLevel_eq (levels : Nat) (directory : d.isDir p = true) :
    d'.outlineLevel levels p = d.outlineLevel levels p := by
  induction levels generalizing p with
  | zero => rfl
  | succ levels ih =>
    obtain ⟨l, located, found⟩ := (isDir_iff p).mp directory
    obtain ⟨located', found'⟩ := (alike.leads p l).mpr ⟨located, found⟩
    rw [outlineLevel, outlineLevel, readNames_of_directory located found,
      readNames_of_directory located' found']
    simp only [Except.mapError, bind, Except.bind, alike.shownIn_eq tree tree']
    -- the same entries are shown, and those that are looked into are directories
    apply mapM_congr_left
    rintro ⟨name, isDirectory⟩ shown
    obtain ⟨-, -, marked⟩ := (mem_shownIn p _ _).mp shown
    cases isDirectory with
    | false => rfl
    | true => simp only [if_true, ih marked.symm]

theorem outline_eq (root : d.IsRoot p) (root' : d'.IsRoot p) : d'.outline p = d.outline p := by
  unfold outline outlineLevels
  rw [alike.depth]
  by_cases directory : d.isDir p = true
  · have directory' : d'.isDir p = true := by rw [alike.isDir_eq, directory]
    rw [if_pos (isThere_of_isDir directory), if_pos (isThere_of_isDir directory')]
    exact alike.outlineLevel_eq tree tree' _ directory
  · have missing : ¬d.isThere p = true := fun there => directory (root there)
    have missing' : ¬d'.isThere p = true := fun there =>
      directory (by rw [← alike.isDir_eq, root' there])
    rw [if_neg missing, if_neg missing']

end LooksLike

/-- A disk is as deep as its longest location. -/
theorem depth_le_of_longer (tree : d.IsTree)
    (longer : ∀ l, (d.get? l).isSome → ∃ k, (d'.get? k).isSome ∧ l.length ≤ k.length) :
    d.depth ≤ d'.depth := by
  have each (entries : List (Location × Entry)) (n m : Nat) (least : n ≤ m)
      (below : ∀ listed ∈ entries, listed.1.length ≤ m) :
      entries.foldl (fun n listed => max n listed.1.length) n ≤ m := by
    induction entries generalizing n with
    | nil => exact least
    | cons first rest ih =>
      apply ih
      · exact max_le least (below first List.mem_cons_self)
      · exact fun listed later => below listed (List.mem_cons_of_mem _ later)
  apply each d.entries 0 d'.depth (Nat.zero_le _)
  rintro ⟨l, e⟩ listed
  by_cases root : l = []
  · rw [root]
    exact Nat.zero_le _
  · have found : d.get? l = some e := by
      rw [get?_of_ne l root, lookup_of_mem_entries tree.keys_nodup l e listed]
    obtain ⟨k, there, le⟩ := longer l (by rw [found]; rfl)
    obtain ⟨e', found'⟩ := Option.isSome_iff_exists.mp there
    by_cases top : k = []
    · rw [top] at le
      exact le.trans (Nat.zero_le _)
    · rw [get?_of_ne k top] at found'
      exact le.trans (length_le_depth k e' (mem_entries_of_lookup k e' found'))

theorem hides_temporaryName (name : String) : Outline.hides (temporaryName name) = true := by
  simp [Outline.hides, Path.temporaryName_toList]

section

variable (content : ByteArray) (runnable : Bool)
  (found : d.get? (dir ++ [name]) = some (.file content runnable))
  (solid : d.get? (dir ++ [temporaryName name]) ≠ some .directory)
  (unlinked : ∀ target, d.get? (dir ++ [temporaryName name]) ≠ some (.link target))
include found

theorem depth_swapped (tree : d.IsTree) (bytes : ByteArray) (runnable' : Bool)
    (tree' : (d.swapped dir name bytes runnable').IsTree) :
    (d.swapped dir name bytes runnable').depth = d.depth := by
  apply Nat.le_antisymm
  · apply depth_le_of_longer tree'
    intro l there
    refine ⟨l, ?_, le_rfl⟩
    rw [get?_swapped] at there
    split at there
    next here => rw [here, found]; rfl
    · split at there
      · cases there
      · exact there
  · apply depth_le_of_longer tree
    intro l there
    -- the temporary file is gone, and the file that it became is as deep
    by_cases temporary : l = dir ++ [temporaryName name]
    · refine ⟨dir ++ [name], ?_, ?_⟩
      · rw [get?_swapped, if_pos rfl]
        rfl
      · rw [temporary, List.length_append, List.length_append]
        exact le_rfl
    · refine ⟨l, ?_, le_rfl⟩
      rw [get?_swapped]
      split
      · rfl
      · exact there

include solid unlinked

/-- A directory is found where it was, as no way to it leads through the temporary file. -/
theorem locate_swapped (bytes : ByteArray) (runnable' : Bool) {l : Location}
    (located : d.locate true p = .ok l) (directory : d.get? l = some .directory) :
    (d.swapped dir name bytes runnable').locate true p = .ok l := by
  have rest : (d.erase (dir ++ [temporaryName name])).IsPartOf
      (d.swapped dir name bytes runnable') := by
    intro k e there
    rw [get?_erase _ (by simp)] at there
    split at there
    · cases there
    next other =>
      rw [get?_swapped, if_neg other]
      split
      next here =>
        rw [here, found] at there
        cases there
        exact ⟨_, rfl, bytes, runnable', rfl⟩
      next => exact ⟨e, there, .refl e⟩
  obtain ⟨clean, nonempty, taken⟩ := (locate_eq_ok_iff true p l).mp located
  obtain ⟨links, within, leads⟩ := leads_of_trace _ _ _ _ taken
  apply (locate_eq_ok_iff true p l).mpr
  refine ⟨clean, nonempty, trace_of_leads _ _ _ links l ?_ within⟩
  rcases leads.avoids_or_passes dir _ solid with avoids | ⟨_, _, -, proper, passes⟩
  · exact avoids.mono rest
  · -- from the temporary file no step leads on, and it is no link
    rcases passes.step_cases _ _ _ _ _ proper with ⟨_, _, _, tail⟩ | ⟨target, _, there, _⟩
    · exact absurd (tail.directory_of_end _ _ _ _ directory) solid
    · exact absurd there (unlinked target)

/-- A file that takes the place of another is not seen in an outline. -/
theorem looksLike_swapped (tree : d.IsTree) (bytes : ByteArray) (runnable' : Bool)
    (tree' : (d.swapped dir name bytes runnable').IsTree)
    (part : (d.swapped dir name bytes runnable').IsPartOf d) :
    LooksLike d (d.swapped dir name bytes runnable') := by
  constructor
  · intro p l
    constructor
    · rintro ⟨located, directory⟩
      exact ⟨locate_mono part rfl located, part.directory l directory⟩
    · rintro ⟨located, directory⟩
      have located' := locate_swapped content runnable found solid unlinked bytes runnable' located
        directory
      refine ⟨located', ?_⟩
      rw [get?_swapped, if_neg, if_neg, directory]
      · rintro rfl
        exact solid directory
      · rintro rfl
        rw [found] at directory
        cases directory
  · -- the temporary name is hidden, and a file had the other name before
    intro l shown visible
    have apart : l ++ [shown] ≠ dir ++ [temporaryName name] := by
      intro same
      obtain ⟨-, last⟩ := List.append_inj' same rfl
      rw [(List.cons.inj last).1, hides_temporaryName] at visible
      cases visible
    rw [get?_swapped, if_neg apart]
    split
    next here =>
      rw [here, found]
      exact iff_of_true rfl rfl
    next => exact Iff.rfl
  · exact depth_swapped content runnable found tree bytes runnable' tree'

end

end Disk

end Workbench
