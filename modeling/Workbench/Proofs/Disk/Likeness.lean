import Workbench.Proofs.Disk.Listing
import Workbench.Proofs.Disk.Canonical

/-! Directories that look the same, on two disks and in two places. What a walk lists in them does not
depend on where they are, nor on the order in which their entries are read. -/
namespace Workbench

/-- An entry without whether it may be run, and without where it links to. -/
def Entry.bare : Entry → Entry
  | .file content _ => .file content false
  | .directory => .directory
  | .link _ => .link ⟨""⟩

theorem Entry.bare_eq_directory_iff (e : Entry) : e.bare = .directory ↔ e = .directory := by
  cases e <;> simp [bare]

def Below.bare (b : Below) : Below := ⟨b.names, b.entry.bare⟩

namespace Disk

/-- By the same names the same is found from one location as from another: nothing, a directory, a
link, or a file with the same content. -/
def Alike (d : Disk) (l : Location) (d' : Disk) (l' : Location) : Prop :=
  ∀ names, (d.get? (l ++ names)).map Entry.bare = (d'.get? (l' ++ names)).map Entry.bare

variable {d d' : Disk} {l l' : Location}

section

variable (alike : Alike d l d' l')
include alike

theorem Alike.inner (name : String) : Alike d (l ++ [name]) d' (l' ++ [name]) := by
  intro names
  have same := alike (name :: names)
  rwa [List.append_cons, List.append_cons l'] at same

/-- The same names are listed, in whatever order the directories are read. -/
theorem Alike.sortNames_eq (tree : d.IsTree) (tree' : d'.IsTree) :
    sortNames (d.namesAt l) = sortNames (d'.namesAt l') := by
  have antisymm (a b : String) (_ : a ∈ sortNames (d.namesAt l))
      (_ : b ∈ sortNames (d'.namesAt l')) (less : a < b) (greater : b < a) : a = b :=
    absurd greater (String.lt_asymm less)
  apply List.Perm.eq_of_pairwise antisymm (pairwise_sortNames tree l) (pairwise_sortNames tree' l')
  apply (List.perm_ext_iff_of_nodup (nodup_sortNames tree l) (nodup_sortNames tree' l')).mpr
  intro name
  have same := congrArg Option.isSome (alike [name])
  rw [Option.isSome_map, Option.isSome_map] at same
  rw [mem_sortNames, mem_sortNames, same]

/-- A walk lists the same if it does not look at where links lead and what may be run. -/
theorem Alike.below_eq (tree : d.IsTree) (tree' : d'.IsTree) (enter : String → Entry → Bool)
    (blind : ∀ name e, enter name e.bare = enter name e) (levels : Nat) :
    (d.below enter levels l).map Below.bare = (d'.below enter levels l').map Below.bare := by
  induction levels generalizing l l' with
  | zero => rfl
  | succ levels ih =>
    rw [below, below, alike.sortNames_eq tree tree', List.map_flatMap, List.map_flatMap]
    congr 1
    funext name
    -- what a name leads to is the same but for what the walk does not look at
    have same := alike [name]
    cases found : d.get? (l ++ [name]) with
    | none =>
      rw [found, Option.map_none, eq_comm, Option.map_eq_none_iff] at same
      rw [same]
    | some e =>
      rw [found, Option.map_some, eq_comm, Option.map_eq_some_iff] at same
      obtain ⟨e', found', bare⟩ := same
      have enters : enter name e' = enter name e := by rw [← blind name e', bare, blind]
      have directory : e' = .directory ↔ e = .directory := by
        rw [← e'.bare_eq_directory_iff, bare, e.bare_eq_directory_iff]
      have deeper := ih (alike.inner name)
      rw [found']
      dsimp only
      rw [enters]
      by_cases entered : enter name e = true
      · rw [if_pos entered, if_pos entered, List.map_cons, List.map_cons]
        congr 1
        · rw [Below.bare, Below.bare, bare]
        · by_cases down : e = .directory
          · rw [if_pos down, if_pos (directory.mpr down), List.map_map, List.map_map]
            have prefixed :=
              congrArg (List.map fun b => (⟨name :: b.names, b.entry⟩ : Below)) deeper
            rw [List.map_map, List.map_map] at prefixed
            exact prefixed
          · rw [if_neg down, if_neg (directory.not.mpr down)]
      · rw [if_neg entered, if_neg entered]

end

/-- A walk does not list more when it goes deeper than there are entries. -/
theorem below_succ_of_deep (enter : String → Entry → Bool) (levels : Nat) (dir : Location)
    (deep : d.depth ≤ dir.length + levels) :
    d.below enter (levels + 1) dir = d.below enter levels dir := by
  induction levels generalizing dir with
  | zero =>
    -- an entry in the directory would lie deeper than any
    have nothing : d.namesAt dir = [] := by
      rw [List.eq_nil_iff_forall_not_mem]
      intro name listed
      obtain ⟨e, found⟩ := Option.isSome_iff_exists.mp ((mem_namesAt dir name).mp listed)
      rw [get?_of_ne _ (by simp)] at found
      have length := length_le_depth _ _ (mem_entries_of_lookup _ _ found)
      rw [List.length_append, List.length_singleton] at length
      omega
    rw [below, below, nothing, sortNames, List.mergeSort_nil, List.flatMap_nil]
  | succ levels ih =>
    rw [below_succ, below_succ]
    congr 1
    funext listed
    rw [belowOne, belowOne,
      ih (dir ++ [listed.1]) (by rw [List.length_append, List.length_singleton]; omega)]

theorem below_of_le (enter : String → Entry → Bool) (dir : Location) (levels : Nat)
    (deep : d.depth ≤ levels) : d.below enter levels dir = d.below enter d.depth dir := by
  induction levels, deep using Nat.le_induction with
  | base => rfl
  | succ levels deep ih => rw [below_succ_of_deep enter levels dir (by omega), ih]

/-- Walks that go as deep as there are entries list the same. -/
theorem Alike.below_depth_eq (alike : Alike d l d' l') (tree : d.IsTree) (tree' : d'.IsTree)
    (enter : String → Entry → Bool) (blind : ∀ name e, enter name e.bare = enter name e) :
    (d.below enter d.depth l).map Below.bare = (d'.below enter d'.depth l').map Below.bare := by
  rw [← below_of_le enter l (max d.depth d'.depth) (Nat.le_max_left _ _),
    ← below_of_le enter l' (max d.depth d'.depth) (Nat.le_max_right _ _)]
  exact alike.below_eq tree tree' enter blind _

variable {p : Path}

/-- A file below a directory is read by the names that lead there. -/
theorem readText_under (tree : d.IsTree) (located : d.locate true p = .ok l) (names : List String)
    (content : ByteArray) (runnable : Bool)
    (found : d.get? (l ++ names) = some (.file content runnable)) :
    d.readText (p.under names) =
      match String.fromUTF8? content with
      | some text => .ok text
      | none => .error .notText := by
  have plain : (Entry.file content runnable).IsPlain := fun _ same => by cases same
  have there := locate_under tree located names _ found plain
  have read : d.readBytes (p.under names) = .ok content :=
    (readBytes_eq_ok_iff _ _).mpr ⟨l ++ names, runnable, there, found⟩
  rw [readText, read]
  rfl

end Disk

end Workbench
