import Mathlib.Algebra.Ring.Nat
import Mathlib.Data.List.Nodup
import Workbench.Disk.Copy
import Workbench.Proofs.Disk.Spot

/-! What a walk lists. An entry is met if the walk enters it and every directory on the way to it, and
the listing of a directory has each entry below it once, so that entries may be counted on the disk
instead of the walk. -/
namespace Workbench

/-- Whether an entry is a regular file. -/
def Entry.isFile : Entry → Bool
  | .file _ _ => true
  | _ => false

namespace Disk

variable {d : Disk}

theorem nodup_sortNames (tree : d.IsTree) (dir : Location) : (sortNames (d.namesAt dir)).Nodup := by
  have listed : d.namesAt dir = (d.entries.map Prod.fst).filterMap (nameIn? dir) := by
    rw [namesAt, List.filterMap_map]
    rfl
  rw [sortNames, (List.mergeSort_perm _ _).nodup_iff, listed]
  refine List.Nodup.filterMap (fun l l' name first second => ?_) tree.keys_nodup
  rw [(nameIn?_eq_some_iff dir l name).mp first, (nameIn?_eq_some_iff dir l' name).mp second]

/-- The names of a directory increase, in whatever order they were read. -/
theorem pairwise_sortNames (tree : d.IsTree) (dir : Location) :
    (sortNames (d.namesAt dir)).Pairwise (· < ·) := by
  have trans (a b c : String) (first : decide (a ≤ b) = true) (second : decide (b ≤ c) = true) :
      decide (a ≤ c) = true := by
    rw [decide_eq_true_eq] at *
    exact String.le_trans first second
  have total (a b : String) : (decide (a ≤ b) || decide (b ≤ a)) = true := by
    simpa using String.le_total a b
  have sorted := List.pairwise_mergeSort trans total (d.namesAt dir)
  -- no name is listed twice
  refine (sorted.and (nodup_sortNames tree dir)).imp fun {a b} both => ?_
  by_contra not
  exact both.2 (String.le_antisymm (of_decide_eq_true both.1) (String.not_lt.mp not))

theorem mem_sortNames (dir : Location) (name : String) :
    name ∈ sortNames (d.namesAt dir) ↔ (d.get? (dir ++ [name])).isSome := by
  rw [sortNames, (List.mergeSort_perm _ _).mem_iff, mem_namesAt]

/-- A snapshot lists the entries of a directory. -/
theorem mem_snapshot (dir : Location) (name : String) (e : Entry) :
    (name, e) ∈ d.snapshot dir ↔ d.get? (dir ++ [name]) = some e := by
  rw [snapshot, List.mem_filterMap]
  constructor
  · rintro ⟨n, -, found⟩
    obtain ⟨e', there, same⟩ := Option.map_eq_some_iff.mp found
    cases same
    exact there
  · intro found
    exact ⟨name, (mem_sortNames dir name).mpr (by simp [found]), by simp [found]⟩

theorem named_of_snapshot (tree : d.IsTree) (dir : Location) :
    ∀ entry ∈ d.snapshot dir, IsName entry.1 := fun ⟨name, e⟩ member =>
  tree.isName dir name (by rw [(mem_snapshot dir name e).mp member]; rfl)

/-- No name is listed twice. -/
theorem nodup_snapshot (tree : d.IsTree) (dir : Location) :
    ((d.snapshot dir).map Prod.fst).Nodup := by
  have names : ((d.snapshot dir).map Prod.fst).Sublist (sortNames (d.namesAt dir)) := by
    rw [snapshot]
    induction sortNames (d.namesAt dir) with
    | nil => simp
    | cons name rest ih =>
      cases found : d.get? (dir ++ [name]) with
      | none => simpa [found] using ih.cons name
      | some e => simpa [found] using ih
  exact (nodup_sortNames tree dir).sublist names

theorem perm_snapshot {d' : Disk} (tree : d.IsTree) (tree' : d'.IsTree) (dir : Location)
    (same : ∀ name, d'.get? (dir ++ [name]) = d.get? (dir ++ [name])) :
    (d'.snapshot dir).Perm (d.snapshot dir) := by
  refine (List.perm_ext_iff_of_nodup (.of_map _ (nodup_snapshot tree' dir))
    (.of_map _ (nodup_snapshot tree dir))).mpr ?_
  rintro ⟨name, e⟩
  rw [mem_snapshot, mem_snapshot, same]

/-- What a walk lists for an entry: the entry itself, and below a directory whatever is in it. -/
def belowOne (d : Disk) (enter : String → Entry → Bool) (levels : Nat) (dir : Location)
    (listed : String × Entry) : List Below :=
  if enter listed.1 listed.2 then
    ⟨[listed.1], listed.2⟩ ::
      (if listed.2 = .directory then
        (d.below enter levels (dir ++ [listed.1])).map fun b => ⟨listed.1 :: b.names, b.entry⟩
      else [])
  else []

section

variable (enter : String → Entry → Bool)

/-- A walk lists the entries of the snapshot, each before what lies below it. -/
theorem below_succ (levels : Nat) (dir : Location) :
    d.below enter (levels + 1) dir = (d.snapshot dir).flatMap (d.belowOne enter levels dir) := by
  rw [below, snapshot]
  induction sortNames (d.namesAt dir) with
  | nil => rfl
  | cons name rest ih =>
    rw [List.flatMap_cons, ih]
    cases found : d.get? (dir ++ [name]) with
    | none => simp [found]
    | some e => simp [found, belowOne]

/-- What is listed for an entry has the name of the entry in front. -/
theorem mem_belowOne_iff (levels : Nat) (dir : Location) (listed : String × Entry) (b : Below) :
    b ∈ d.belowOne enter levels dir listed ↔ ∃ rest, b.names = listed.1 :: rest ∧
      enter listed.1 listed.2 = true ∧ (rest = [] ∧ b.entry = listed.2 ∨
        listed.2 = .directory ∧ ⟨rest, b.entry⟩ ∈ d.below enter levels (dir ++ [listed.1])) := by
  unfold belowOne
  constructor
  · intro member
    split at member
    next entered =>
      rcases List.mem_cons.mp member with rfl | deeper
      · exact ⟨[], rfl, entered, .inl ⟨rfl, rfl⟩⟩
      · split at deeper
        next directory =>
          obtain ⟨inner, below, rfl⟩ := List.mem_map.mp deeper
          exact ⟨inner.names, rfl, entered, .inr ⟨directory, below⟩⟩
        next => cases deeper
    next => cases member
  · obtain ⟨names, entry⟩ := b
    rintro ⟨rest, rfl, entered, ⟨rfl, rfl⟩ | ⟨directory, below⟩⟩
    · rw [if_pos entered]
      exact List.mem_cons_self
    · rw [if_pos entered, if_pos directory]
      exact List.mem_cons_of_mem _ (List.mem_map.mpr ⟨_, below, rfl⟩)

/-- An entry is listed under its name, or under the name of the directory that it lies in and that
the walk enters. -/
theorem mem_below_succ (levels : Nat) (dir : Location) (name : String) (rest : List String)
    (entry : Entry) :
    ⟨name :: rest, entry⟩ ∈ d.below enter (levels + 1) dir ↔
      ∃ e, d.get? (dir ++ [name]) = some e ∧ enter name e = true ∧
        (rest = [] ∧ entry = e ∨
          e = .directory ∧ ⟨rest, entry⟩ ∈ d.below enter levels (dir ++ [name])) := by
  rw [below_succ, List.mem_flatMap]
  constructor
  · rintro ⟨⟨first, e⟩, member, listed⟩
    obtain ⟨_, same, entered, inner⟩ := (mem_belowOne_iff enter levels dir _ _).mp listed
    cases same
    exact ⟨e, (mem_snapshot dir _ e).mp member, entered, inner⟩
  · rintro ⟨e, found, entered, inner⟩
    refine ⟨(name, e), (mem_snapshot dir name e).mpr found, ?_⟩
    exact (mem_belowOne_iff enter levels dir _ _).mpr ⟨rest, rfl, entered, inner⟩

/-- What a walk lists is on the disk. -/
theorem get?_of_mem_below (levels : Nat) (dir : Location) (b : Below)
    (listed : b ∈ d.below enter levels dir) :
    b.names ≠ [] ∧ d.get? (dir ++ b.names) = some b.entry := by
  induction levels generalizing dir b with
  | zero => cases listed
  | succ levels ih =>
    rw [below_succ, List.mem_flatMap] at listed
    obtain ⟨⟨name, e⟩, member, inner⟩ := listed
    have found := (mem_snapshot dir name e).mp member
    obtain ⟨rest, names, -, ⟨rfl, same⟩ | ⟨-, deeper⟩⟩ :=
      (mem_belowOne_iff enter levels dir _ b).mp inner
    · exact ⟨by simp [names], by rw [names, same, found]⟩
    · have there := (ih (dir ++ [name]) _ deeper).2
      exact ⟨by simp [names], by rw [names, ← there, List.append_assoc]; rfl⟩

/-- Whether a walk enters whatever names lead through. -/
def Enters (d : Disk) (dir : Location) (names : List String) : Prop :=
  ∀ front name e, front ++ [name] <+: names → d.get? (dir ++ (front ++ [name])) = some e →
    enter name e = true

theorem enters_cons (dir : Location) (name : String) (rest : List String) (e : Entry)
    (found : d.get? (dir ++ [name]) = some e) :
    d.Enters enter dir (name :: rest) ↔
      enter name e = true ∧ d.Enters enter (dir ++ [name]) rest := by
  constructor
  · intro enters
    constructor
    · exact enters [] name e ⟨rest, rfl⟩ found
    · intro front next e' begins there
      apply enters (name :: front) next e' (by simpa using begins)
      rwa [List.append_assoc] at there
  · rintro ⟨entered, deeper⟩ front next e' begins there
    cases front with
    | nil =>
      obtain ⟨rfl, -⟩ : next = name ∧ [] <+: rest := by simpa using begins
      obtain rfl := Option.some.inj (there.symm.trans found)
      exact entered
    | cons first front =>
      obtain ⟨rfl, later⟩ := List.cons_prefix_cons.mp begins
      exact deeper front next e' later (by rw [← there, List.append_assoc]; rfl)

/-- A walk that is deep enough lists the entries that it enters on the way to them. -/
theorem mem_below_iff (tree : d.IsTree) (levels : Nat) (dir : Location) (names : List String)
    (entry : Entry) (within : names.length ≤ levels) :
    ⟨names, entry⟩ ∈ d.below enter levels dir ↔
      names ≠ [] ∧ d.get? (dir ++ names) = some entry ∧ d.Enters enter dir names := by
  induction names generalizing levels dir with
  | nil =>
    refine iff_of_false (fun listed => ?_) fun both => both.1 rfl
    exact (get?_of_mem_below _ _ _ _ listed).1 rfl
  | cons name rest ih =>
    obtain ⟨levels, rfl⟩ : ∃ fewer, levels = fewer + 1 :=
      Nat.exists_eq_add_one_of_ne_zero (Nat.ne_of_gt (Nat.zero_lt_of_lt within))
    have within : rest.length ≤ levels := by simpa using within
    rw [mem_below_succ, List.append_cons dir name rest]
    constructor
    · rintro ⟨e, found, entered, ⟨rfl, rfl⟩ | ⟨rfl, inner⟩⟩
      · have nothing : d.Enters enter (dir ++ [name]) [] := fun front n e' begins => by
          simp at begins
        exact ⟨by simp, by simpa using found,
          (enters_cons enter dir name [] _ found).mpr ⟨entered, nothing⟩⟩
      · obtain ⟨-, there, deeper⟩ := (ih levels (dir ++ [name]) within).mp inner
        exact ⟨by simp, there, (enters_cons enter dir name rest _ found).mpr ⟨entered, deeper⟩⟩
    · rintro ⟨-, there, enters⟩
      by_cases last : rest = []
      · subst last
        rw [List.append_nil] at there
        exact ⟨entry, there, ((enters_cons enter dir name [] _ there).mp enters).1, .inl ⟨rfl, rfl⟩⟩
      · -- what names lead through is a directory
        have directory := tree.directory_of_below (dir ++ [name]) rest last (by rw [there]; rfl)
        obtain ⟨entered, deeper⟩ := (enters_cons enter dir name rest _ directory).mp enters
        exact ⟨.directory, directory, entered,
          .inr ⟨rfl, (ih levels (dir ++ [name]) within).mpr ⟨last, there, deeper⟩⟩⟩

end

/-- A walk that leaves nothing out. -/
abbrev everything : String → Entry → Bool := fun _ _ => true

/-- A walk that leaves nothing out lists whatever lies no deeper than it goes. -/
theorem mem_below_of_get? (tree : d.IsTree) (levels : Nat) (dir : Location) (b : Below)
    (nonempty : b.names ≠ []) (within : b.names.length ≤ levels)
    (found : d.get? (dir ++ b.names) = some b.entry) : b ∈ d.below everything levels dir :=
  (mem_below_iff everything tree levels dir b.names b.entry within).mpr
    ⟨nonempty, found, fun _ _ _ _ _ => rfl⟩

theorem nodup_belowOne (levels : Nat) (dir : Location) (listed : String × Entry)
    (deeper : (d.below everything levels (dir ++ [listed.1])).Nodup) :
    (d.belowOne everything levels dir listed).Nodup := by
  simp only [belowOne, if_true, List.nodup_cons]
  constructor
  · intro again
    split at again
    · obtain ⟨b, listed, same⟩ := List.mem_map.mp again
      have nonempty := (get?_of_mem_below _ levels _ b listed).1
      exact nonempty (List.cons.inj (congrArg Below.names same)).2
    · cases again
  · split
    · refine deeper.map fun b b' same => ?_
      obtain ⟨names, entry⟩ := b
      obtain ⟨names', entry'⟩ := b'
      cases same
      rfl
    · exact List.nodup_nil

theorem nodup_below (tree : d.IsTree) (levels : Nat) (dir : Location) :
    (d.below everything levels dir).Nodup := by
  induction levels generalizing dir with
  | zero => exact List.nodup_nil
  | succ levels ih =>
    rw [below_succ, List.nodup_flatMap]
    refine ⟨fun listed _ => nodup_belowOne levels dir listed (ih _), ?_⟩
    -- what is listed below different names begins with different names
    have distinct := nodup_snapshot tree dir
    rw [List.Nodup, List.pairwise_map] at distinct
    refine distinct.imp fun {x y} apart b first second => apart ?_
    obtain ⟨_, names, -⟩ := (mem_belowOne_iff everything levels dir x b).mp first
    obtain ⟨_, names', -⟩ := (mem_belowOne_iff everything levels dir y b).mp second
    exact (List.cons.inj (names.symm.trans names')).1

theorem length_le_depth (l : Location) (e : Entry) (listed : (l, e) ∈ d.entries) :
    l.length ≤ d.depth := by
  have grows (entries : List (Location × Entry)) (n : Nat) :
      n ≤ entries.foldl (fun n listed => max n listed.1.length) n ∧ ∀ listed ∈ entries,
        listed.1.length ≤ entries.foldl (fun n listed => max n listed.1.length) n := by
    induction entries generalizing n with
    | nil => simp
    | cons first rest ih =>
      obtain ⟨more, each⟩ := ih (max n first.1.length)
      refine ⟨(le_max_left _ _).trans more, fun listed member => ?_⟩
      rcases List.mem_cons.mp member with rfl | later
      · exact (le_max_right _ _).trans more
      · exact each listed later
  exact (grows d.entries 0).2 (l, e) listed

/-- How many entries below a location pass a test. -/
def countBelow (d : Disk) (test : Location → Entry → Bool) (dir : Location) : Nat :=
  d.entries.countP fun listed =>
    decide (dir <+: listed.1) && decide (listed.1 ≠ dir) && test listed.1 listed.2

/-- A walk that is deep enough lists the entries below a location. -/
theorem perm_below (tree : d.IsTree) (levels : Nat) (deep : d.depth ≤ levels) (dir : Location) :
    ((d.below everything levels dir).map fun b => (dir ++ b.names, b.entry)).Perm
      (d.entries.filter fun listed => decide (dir <+: listed.1) && decide (listed.1 ≠ dir)) := by
  refine (List.perm_ext_iff_of_nodup ?_ ?_).mpr ?_
  · refine (nodup_below tree levels dir).map fun b b' same => ?_
    obtain ⟨names, entry⟩ := b
    obtain ⟨names', entry'⟩ := b'
    obtain ⟨front, rfl⟩ := Prod.mk.inj same
    have equal : names = names' := List.append_cancel_left front
    rw [equal]
  · exact (List.Nodup.of_map Prod.fst tree.keys_nodup).filter _
  · rintro ⟨l, e⟩
    simp only [List.mem_map, List.mem_filter, Bool.and_eq_true, decide_eq_true_eq, Prod.mk.injEq]
    constructor
    · rintro ⟨b, listed, rfl, rfl⟩
      obtain ⟨nonempty, found⟩ := get?_of_mem_below _ _ _ b listed
      have below : dir ++ b.names ≠ [] := by simp [nonempty]
      rw [get?_of_ne _ below] at found
      exact ⟨mem_entries_of_lookup _ _ found, List.prefix_append _ _, by simpa using nonempty⟩
    · rintro ⟨listed, ⟨rest, rfl⟩, apart⟩
      have nonempty : rest ≠ [] := by simpa using apart
      have found : d.get? (dir ++ rest) = some e := by
        rw [get?_of_ne _ (by simp [nonempty])]
        exact lookup_of_mem_entries tree.keys_nodup _ e listed
      have length := (length_le_depth _ e listed).trans deep
      rw [List.length_append] at length
      exact ⟨⟨rest, e⟩, mem_below_of_get? tree levels dir _ nonempty (by dsimp only; omega) found,
        rfl, rfl⟩

theorem countBelow_eq_countP (tree : d.IsTree) (test : Location → Entry → Bool) (levels : Nat)
    (deep : d.depth ≤ levels) (dir : Location) :
    d.countBelow test dir =
      (d.below everything levels dir).countP fun b => test (dir ++ b.names) b.entry := by
  have counted := (perm_below tree levels deep dir).countP_eq fun listed => test listed.1 listed.2
  rw [List.countP_map, List.countP_filter] at counted
  rw [countBelow]
  simpa [Function.comp_def, Bool.and_comm] using counted.symm

/-- The entries below a directory are those in it and those below the directories in it. -/
theorem countBelow_eq_sum (tree : d.IsTree) (test : Location → Entry → Bool) (dir : Location) :
    d.countBelow test dir = ((d.snapshot dir).map fun listed =>
      (if test (dir ++ [listed.1]) listed.2 then 1 else 0) +
        if listed.2 = .directory then d.countBelow test (dir ++ [listed.1]) else 0).sum := by
  rw [countBelow_eq_countP tree test (d.depth + 1) (Nat.le_succ _), below_succ, List.countP_flatMap]
  congr 2
  funext listed
  have deeper := countBelow_eq_countP tree test d.depth le_rfl (dir ++ [listed.1])
  by_cases directory : listed.2 = .directory
  · simp [belowOne, directory, deeper, List.countP_cons, List.countP_map, Function.comp_def,
      Nat.add_comm]
  · simp [belowOne, directory, List.countP_cons]

/-- A walk from a path to a directory lists what is below the directory, after the directory or the
link that the path names. -/
theorem walk_eq_ok (enter : String → Entry → Bool) (p : Path) (l : Location)
    (located : d.locate true p = .ok l) (directory : d.get? l = some .directory) :
    ∃ e : Entry, e.isFile = false ∧
      d.walk enter p = .ok (⟨[], e⟩ :: d.below enter d.depth l) := by
  rcases locate_unfollowed located with same | ⟨k, target, linked, link⟩
  · refine ⟨.directory, rfl, ?_⟩
    simp [walk, same, directory, Except.mapError, bind, Except.bind, pure, Except.pure]
  · refine ⟨.link target, rfl, ?_⟩
    simp [walk, linked, link, located, isDirAt, directory, Except.mapError, bind, Except.bind, pure,
      Except.pure]

/-- The files that are counted at a path are those below where it leads. -/
theorem countFiles_eq (tree : d.IsTree) (p : Path) (l : Location)
    (located : d.locate true p = .ok l) (directory : d.get? l = some .directory) :
    d.countFiles p = d.countBelow (fun _ e => e.isFile) l := by
  obtain ⟨e, solid, walked⟩ := walk_eq_ok everything p l located directory
  rw [countBelow_eq_countP tree _ d.depth le_rfl, countFiles, walked]
  change (⟨[], e⟩ :: d.below everything d.depth l).countP (fun b : Below => b.entry.isFile) = _
  rw [List.countP_cons_of_neg (by simp [solid])]

end Disk

end Workbench
