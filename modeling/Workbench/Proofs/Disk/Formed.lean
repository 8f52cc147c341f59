import Mathlib.Data.List.Induction
import Workbench.Proofs.Path.Location

/-! What well-formed disks have in common: an entry lies in a directory at every step on the way
to it, and its location has proper names only. Well-formedness is decidable. The entries form a
tree whether or not the working directory is among them. -/
namespace Workbench

instance (name : String) : Decidable (IsName name) :=
  decidable_of_iff (name ≠ "" ∧ name ≠ "." ∧ name ≠ ".." ∧ '/' ∉ name.toList ∧
      Char.ofNat 0 ∉ name.toList ∧ name.utf8ByteSize ≤ Disk.nameLimit)
    ⟨fun ⟨nonempty, here, up, slash, nul, short⟩ => ⟨nonempty, here, up, slash, nul, short⟩,
      fun named => ⟨named.1, named.2, named.3, named.4, named.5, named.6⟩⟩

namespace Disk

variable {d : Disk}

theorem get?_nil : d.get? [] = some .directory := by simp [get?]

theorem get?_of_ne (l : Location) (below : l ≠ []) : d.get? l = d.entries.lookup l := by
  simp [get?, below]

theorem mem_entries_of_lookup (l : Location) (e : Entry)
    (found : d.entries.lookup l = some e) : (l, e) ∈ d.entries := by
  obtain ⟨before, after, split, -⟩ := List.lookup_eq_some_iff.mp found
  simp [split]

theorem lookup_of_mem_entries (unique : (d.entries.map Prod.fst).Nodup) (l : Location) (e : Entry)
    (member : (l, e) ∈ d.entries) : d.entries.lookup l = some e := by
  obtain ⟨before, after, split⟩ := List.append_of_mem member
  refine List.lookup_eq_some_iff.mpr ⟨before, after, split, ?_⟩
  -- an earlier entry with the same location would be listed twice
  intro p earlier
  have distinct : l ∉ before.map Prod.fst := by
    rw [split, List.map_append, List.map_cons] at unique
    exact fun listed => (List.nodup_append.mp unique).2.2 l listed l List.mem_cons_self rfl
  simpa using fun same : l = p.1 => distinct (same ▸ List.mem_map_of_mem earlier)

/-- What is no directory is listed. -/
theorem mem_entries_of_get? (l : Location) (e : Entry) (found : d.get? l = some e)
    (solid : e ≠ .directory) : (l, e) ∈ d.entries := by
  apply mem_entries_of_lookup
  rw [← get?_of_ne l, found]
  rintro rfl
  rw [get?_nil] at found
  exact solid (Option.some.inj found).symm

/-- There are no links if none is listed. -/
theorem get?_ne_link (plain : ∀ listed ∈ d.entries, ∀ target, listed.2 ≠ .link target)
    (l : Location) (target : Path) : d.get? l ≠ some (.link target) := fun found =>
  plain _ (mem_entries_of_get? l _ found (by simp)) target rfl

/-- Every entry but the root lies in a directory, has a proper name and is listed once. The working
directory may be gone. -/
structure IsTree (d : Disk) : Prop where
  keys_nodup : (d.entries.map Prod.fst).Nodup
  no_root : [] ∉ d.entries.map Prod.fst
  parent_directory : ∀ l name, (d.get? (l ++ [name])).isSome → d.get? l = some .directory
  isName : ∀ l name, (d.get? (l ++ [name])).isSome → IsName name
  links : ∀ l target, d.get? l = some (.link target) → target.text ≠ ""

theorem WellFormed.isTree (formed : d.WellFormed) : d.IsTree where
  keys_nodup := formed.keys_nodup
  no_root := formed.no_root
  parent_directory := formed.parents
  isName l name there := by
    obtain ⟨nonempty, here, up, slash, nul, short⟩ := formed.names l name there
    exact ⟨nonempty, here, up, slash, nul, short⟩
  links := formed.links

namespace IsTree

/-- Whatever lies below a location makes the location a directory. -/
theorem directory_of_below (tree : d.IsTree) (l rest : Location) (nonempty : rest ≠ [])
    (there : (d.get? (l ++ rest)).isSome) : d.get? l = some .directory := by
  -- induction from the far end: whatever has an entry is a directory, and lies in one itself
  induction rest using List.reverseRecOn with
  | nil => exact absurd rfl nonempty
  | append_singleton front name ih =>
    rw [← List.append_assoc] at there
    have parent := tree.parent_directory (l ++ front) name there
    by_cases last : front = []
    · simpa [last] using parent
    · exact ih last (by simp [parent])

/-- Every entry has a proper location. -/
theorem isProper (tree : d.IsTree) (l : Location) (there : (d.get? l).isSome) :
    l.IsProper := by
  induction l using List.reverseRecOn with
  | nil => intro name member; cases member
  | append_singleton dir name ih =>
    intro n member
    rcases List.mem_append.mp member with earlier | last
    · exact ih (by simp [tree.parent_directory dir name there]) n earlier
    · rw [List.mem_singleton.mp last]
      exact tree.isName dir name there

end IsTree

/-- Well-formedness asks something of each listed entry only. -/
theorem wellFormed_iff : d.WellFormed ↔
    (d.entries.map Prod.fst).Nodup ∧ d.get? d.workDir = some .directory ∧
      ∀ listed ∈ d.entries, listed.1 ≠ [] ∧ d.get? listed.1.dropLast = some .directory ∧
        (∀ name ∈ listed.1.getLast?, IsName name) ∧ listed.2 ≠ .link ⟨""⟩ := by
  constructor
  · intro formed
    refine ⟨formed.keys_nodup, formed.workDir_is_dir, ?_⟩
    rintro ⟨l, e⟩ member
    have below : l ≠ [] := fun empty => formed.no_root (empty ▸ List.mem_map_of_mem member)
    have found : d.get? l = some e := by
      rw [get?_of_ne l below, lookup_of_mem_entries formed.keys_nodup l e member]
    obtain ⟨dir, name, rfl⟩ := (List.eq_nil_or_concat' l).resolve_left below
    have there : (d.get? (dir ++ [name])).isSome := by simp [found]
    refine ⟨below, ?_, ?_, ?_⟩
    · simpa using formed.isTree.parent_directory dir name there
    · simpa using formed.isTree.isName dir name there
    · rintro rfl
      exact formed.links _ _ found rfl
  · rintro ⟨unique, workDir, each⟩
    -- what is at a location other than the root is listed
    have listed : ∀ l, l ≠ [] → (d.get? l).isSome → ∃ e, (l, e) ∈ d.entries := by
      intro l below there
      rw [get?_of_ne l below] at there
      obtain ⟨e, found⟩ := Option.isSome_iff_exists.mp there
      exact ⟨e, mem_entries_of_lookup l e found⟩
    refine ⟨unique, ?_, ?_, ?_, ?_, workDir⟩
    · intro root
      obtain ⟨⟨l, e⟩, member, rfl⟩ := List.mem_map.mp root
      exact (each _ member).1 rfl
    · intro l name there
      obtain ⟨e, member⟩ := listed _ (by simp) there
      simpa using (each _ member).2.1
    · intro l name there
      obtain ⟨e, member⟩ := listed _ (by simp) there
      have named : IsName name := (each _ member).2.2.1 name (by simp)
      exact ⟨named.1, named.2, named.3, named.4, named.5, named.6⟩
    · rintro l ⟨text⟩ found rfl
      have below : l ≠ [] := by
        rintro rfl
        simp [get?_nil] at found
      rw [get?_of_ne l below] at found
      exact (each _ (mem_entries_of_lookup l _ found)).2.2.2 rfl

instance : Decidable d.WellFormed := decidable_of_iff _ wellFormed_iff.symm

end Disk

end Workbench
