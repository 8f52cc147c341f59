import Workbench.Proofs.Disk.Formed

/-! What is on a disk after an entry was put, or entries were taken away. A disk stays a tree if an
entry is put into a directory at a place where no directory is, or if what is taken away leaves
nothing behind that lay below it. -/
namespace Workbench.Disk

variable {d : Disk}

theorem get?_erase (a : Location) (below : a ≠ []) (l : Location) :
    (d.erase a).get? l = if l = a then none else d.get? l := by
  by_cases root : l = []
  · subst root
    simp [get?, Ne.symm below]
  · rw [get?_of_ne l root, get?_of_ne l root]
    unfold erase
    induction d.entries with
    | nil => simp
    | cons entry rest ih =>
      obtain ⟨k, e⟩ := entry
      by_cases gone : k = a
      · by_cases same : l = a
        · simpa [gone, same] using ih
        · simpa [gone, same, List.lookup_cons, beq_false_of_ne same] using ih
      · by_cases here : l = k
        · subst here
          simp [gone]
        · simpa [gone, List.lookup_cons, beq_false_of_ne here] using ih

theorem get?_of_erase {a : Location} (below : a ≠ []) (l : Location) (e : Entry)
    (found : (d.erase a).get? l = some e) : d.get? l = some e := by
  rw [get?_erase _ below] at found
  split at found
  · cases found
  · exact found

theorem get?_put (a : Location) (e : Entry) (below : a ≠ []) (l : Location) :
    (d.put a e).get? l = if l = a then some e else d.get? l := by
  by_cases root : l = []
  · subst root
    simp [get?, Ne.symm below]
  · rw [get?_of_ne l root, get?_of_ne l root]
    unfold put
    induction d.entries with
    | nil =>
      by_cases same : l = a
      · simp [putIn, same]
      · simp [putIn, same, List.lookup_cons, beq_false_of_ne same]
    | cons entry rest ih =>
      obtain ⟨k, old⟩ := entry
      by_cases gone : k = a
      · subst gone
        by_cases same : l = k
        · simp [putIn, same]
        · simp [putIn, same, List.lookup_cons, beq_false_of_ne same]
      · by_cases here : l = k
        · subst here
          simp [putIn, gone]
        · simpa [putIn, gone, here, List.lookup_cons, beq_false_of_ne here] using ih

theorem lookup_filter (keeps : Location → Bool) (entries : List (Location × Entry)) (l : Location) :
    (entries.filter fun listed => keeps listed.1).lookup l =
      if keeps l then entries.lookup l else none := by
  induction entries with
  | nil => simp
  | cons listed rest ih =>
    obtain ⟨k, e⟩ := listed
    by_cases kept : keeps k = true
    · by_cases here : l = k
      · subst here
        simp [kept]
      · simpa [kept, List.lookup_cons, beq_false_of_ne here] using ih
    · by_cases here : l = k
      · subst here
        simpa [kept] using ih
      · simpa [kept, List.lookup_cons, beq_false_of_ne here] using ih

theorem get?_eraseBelow (a l : Location) :
    (d.eraseBelow a).get? l = if a <+: l ∧ l ≠ a then none else d.get? l := by
  by_cases root : l = []
  · subst root
    have same : a <+: [] → a = [] := List.prefix_nil.mp
    rw [if_neg fun below => below.2 (same below.1).symm]
    rfl
  · rw [get?_of_ne l root, get?_of_ne l root]
    have kept := lookup_filter (fun k => k = a || !a.isWithin k) d.entries l
    rw [eraseBelow, kept]
    by_cases here : l = a
    · simp [here]
    · have within : a.isWithin l = decide (a <+: l) := by
        rw [Location.isWithin, Bool.eq_iff_iff, decide_eq_true_iff, List.isPrefixOf_iff_prefix]
      by_cases below : a <+: l <;> simp [within, here, below]

theorem get?_eraseTree (a l : Location) :
    (d.eraseTree a).get? l = if a <+: l ∧ l ≠ [] then none else d.get? l := by
  by_cases root : l = []
  · subst root
    rw [if_neg fun below => below.2 rfl]
    rfl
  · rw [get?_of_ne l root, get?_of_ne l root]
    have kept := lookup_filter (fun k => !a.isWithin k) d.entries l
    rw [eraseTree, kept]
    have within : a.isWithin l = decide (a <+: l) := by
      rw [Location.isWithin, Bool.eq_iff_iff, decide_eq_true_iff, List.isPrefixOf_iff_prefix]
    by_cases below : a <+: l <;> simp [within, root, below]

theorem nameIn?_eq_some_iff (dir l : Location) (name : String) :
    nameIn? dir l = some name ↔ l = dir ++ [name] := by
  fun_induction nameIn? dir l with
  | case1 => simp
  | case2 a dir l ih => simpa using ih
  | case3 a dir b l other => simp [Ne.symm other]
  | case4 dir l longer single =>
    constructor
    · intro found
      cases found
    · rintro rfl
      cases dir with
      | nil => exact absurd rfl (longer name rfl)
      | cons a dir => exact absurd rfl (single a dir a (dir ++ [name]) rfl)

/-- A name is listed for a directory exactly if there is an entry of that name. -/
theorem mem_namesAt (dir : Location) (name : String) :
    name ∈ d.namesAt dir ↔ (d.get? (dir ++ [name])).isSome := by
  rw [get?_of_ne _ (by simp), namesAt, List.mem_filterMap]
  constructor
  · rintro ⟨⟨l, e⟩, listed, found⟩
    have same : l = dir ++ [name] := (nameIn?_eq_some_iff dir l name).mp found
    subst same
    by_contra absent
    have missing := List.lookup_eq_none_iff.mp (Option.not_isSome_iff_eq_none.mp absent) _ listed
    simp at missing
  · intro there
    obtain ⟨e, found⟩ := Option.isSome_iff_exists.mp there
    exact ⟨(dir ++ [name], e), mem_entries_of_lookup _ e found, (nameIn?_eq_some_iff _ _ _).mpr rfl⟩

theorem keys_putIn (l : Location) (e : Entry) (entries : List (Location × Entry)) :
    (putIn l e entries).map Prod.fst =
      if l ∈ entries.map Prod.fst then entries.map Prod.fst else entries.map Prod.fst ++ [l] := by
  induction entries with
  | nil => simp [putIn]
  | cons listed rest ih =>
    obtain ⟨k, old⟩ := listed
    rw [putIn]
    split
    next same => simp [same]
    next other =>
      rw [List.map_cons, ih]
      by_cases later : l ∈ rest.map Prod.fst
      · simp [later]
      · simp [later, Ne.symm other]

namespace IsTree

/-- Nothing lies below what is no directory. -/
theorem none_below (tree : d.IsTree) (l rest : Location) (solid : d.get? l ≠ some .directory)
    (nonempty : rest ≠ []) : d.get? (l ++ rest) = none := by
  by_contra there
  exact solid (tree.directory_of_below l rest nonempty (Option.isSome_iff_ne_none.mpr there))

/-- A directory without names has nothing below it. -/
theorem none_below_of_namesAt (tree : d.IsTree) (l rest : Location) (empty : d.namesAt l = [])
    (nonempty : rest ≠ []) : d.get? (l ++ rest) = none := by
  obtain ⟨name, more, rfl⟩ := List.exists_cons_of_ne_nil nonempty
  have absent : d.get? (l ++ [name]) = none := by
    by_contra there
    have listed := (mem_namesAt l name).mpr (Option.isSome_iff_ne_none.mpr there)
    simp [empty] at listed
  by_cases last : more = []
  · rw [last, absent]
  · rw [List.append_cons]
    exact tree.none_below _ more (by simp [absent]) last

/-- An entry may be put into a directory where no directory is. -/
theorem put (tree : d.IsTree) (dir : Location) (name : String) (e : Entry)
    (directory : d.get? dir = some .directory) (named : IsName name)
    (solid : d.get? (dir ++ [name]) ≠ some .directory)
    (aimed : ∀ target, e = .link target → target.text ≠ "") : (d.put (dir ++ [name]) e).IsTree := by
  have place : dir ++ [name] ≠ [] := by simp
  have after (l : Location) := get?_put (d := d) (dir ++ [name]) e place l
  constructor
  · rw [Disk.put, keys_putIn]
    split
    · exact tree.keys_nodup
    next unlisted =>
      exact List.nodup_append.mpr ⟨tree.keys_nodup, by simp, by
        intro a member b last
        rw [List.mem_singleton.mp last]
        rintro rfl
        exact unlisted member⟩
  · rw [Disk.put, keys_putIn]
    split
    · exact tree.no_root
    · simpa using tree.no_root
  · intro l n there
    rw [after] at there ⊢
    by_cases here : l ++ [n] = dir ++ [name]
    · obtain ⟨rfl, -⟩ := List.append_inj' here rfl
      rw [if_neg (by simp), directory]
    · rw [if_neg here] at there
      have above := tree.parent_directory l n there
      -- the entry is put where no directory was
      have apart : l ≠ dir ++ [name] := by
        rintro rfl
        exact solid above
      rw [if_neg apart, above]
  · intro l n there
    rw [after] at there
    by_cases here : l ++ [n] = dir ++ [name]
    · obtain ⟨-, same⟩ := List.append_inj' here rfl
      exact (List.cons.inj same).1 ▸ named
    · rw [if_neg here] at there
      exact tree.isName l n there
  · intro l target found
    rw [after] at found
    split at found
    · exact aimed target (Option.some.inj found)
    · exact tree.links l target found

/-- Entries may be taken away with all that lies below them. -/
theorem filter (tree : d.IsTree) (keeps : Location → Bool) (d' : Disk)
    (kept : d'.entries = d.entries.filter fun listed => keeps listed.1)
    (above : ∀ l name, keeps (l ++ [name]) = true → d.get? (l ++ [name]) ≠ none → l ≠ [] →
      keeps l = true) : d'.IsTree := by
  have after (l : Location) (below : l ≠ []) :
      d'.get? l = if keeps l then d.get? l else none := by
    rw [get?_of_ne l below, get?_of_ne l below, kept, lookup_filter]
  have before (l : Location) (e : Entry) (found : d'.get? l = some e) : d.get? l = some e := by
    by_cases root : l = []
    · subst root
      rwa [get?_nil] at found ⊢
    · rw [after l root] at found
      split at found
      · exact found
      · cases found
  constructor
  · rw [kept]
    exact tree.keys_nodup.sublist (List.filter_sublist.map Prod.fst)
  · rw [kept]
    exact fun root => tree.no_root ((List.filter_sublist.map Prod.fst).subset root)
  · intro l name there
    obtain ⟨e, found⟩ := Option.isSome_iff_exists.mp there
    have parent := tree.parent_directory l name (by simp [before _ e found])
    by_cases root : l = []
    · subst root
      exact get?_nil
    · have stays : keeps (l ++ [name]) = true := by
        by_contra gone
        simp [after, gone] at found
      rw [after l root, if_pos (above l name stays (by simp [before _ e found]) root), parent]
  · intro l name there
    obtain ⟨e, found⟩ := Option.isSome_iff_exists.mp there
    exact tree.isName l name (by simp [before _ e found])
  · exact fun l target found => tree.links l target (before l _ found)

theorem eraseBelow (tree : d.IsTree) (a : Location) : (d.eraseBelow a).IsTree := by
  refine tree.filter (fun k => k = a || !a.isWithin k) _ rfl fun l name kept there below => ?_
  simp only [Location.isWithin, Bool.or_eq_true, decide_eq_true_eq, Bool.not_eq_true',
    ← Bool.not_eq_true, List.isPrefixOf_iff_prefix] at kept ⊢
  by_cases within : a <+: l
  · rcases kept with here | apart
    · exact absurd (here ▸ within).length_le (by simp)
    · exact absurd (within.trans (List.prefix_append _ _)) apart
  · exact .inr within

/-- An entry that nothing lies below may be taken away. -/
theorem erase (tree : d.IsTree) (a : Location) (leaf : ∀ rest, rest ≠ [] → d.get? (a ++ rest) = none) :
    (d.erase a).IsTree := by
  refine tree.filter (fun k => k ≠ a) _ rfl fun l name kept there below => ?_
  simp only [decide_eq_true_eq]
  rintro rfl
  exact there (leaf [name] (by simp))

end IsTree

end Workbench.Disk
