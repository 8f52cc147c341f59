import Workbench.Proofs.Disk.Listing

/-! The order of a walk. A directory comes before its entries and the entries of one directory come by
name, so that the names by which entries are reached increase. -/
namespace Workbench.Disk

variable {d : Disk}

theorem pairwise_snapshot (tree : d.IsTree) (dir : Location) :
    (d.snapshot dir).Pairwise fun first second => first.1 < second.1 := by
  rw [snapshot, List.pairwise_filterMap]
  refine (pairwise_sortNames tree dir).imp fun {a b} less first found second found' => ?_
  obtain ⟨e, -, rfl⟩ := Option.map_eq_some_iff.mp found
  obtain ⟨e', -, rfl⟩ := Option.map_eq_some_iff.mp found'
  exact less

variable (enter : String → Entry → Bool)

/-- An entry comes before what lies below it. -/
theorem pairwise_belowOne (levels : Nat) (dir : Location) (listed : String × Entry)
    (deeper : (d.below enter levels (dir ++ [listed.1])).Pairwise fun b b' => b.names < b'.names) :
    (d.belowOne enter levels dir listed).Pairwise fun b b' => b.names < b'.names := by
  unfold belowOne
  split
  · rw [List.pairwise_cons]
    constructor
    · intro b listed
      split at listed
      · obtain ⟨b, inner, rfl⟩ := List.mem_map.mp listed
        obtain ⟨first, rest, names⟩ :=
          List.exists_cons_of_ne_nil (get?_of_mem_below _ _ _ b inner).1
        rw [names]
        exact .cons .nil
      · cases listed
    · split
      · rw [List.pairwise_map]
        exact deeper.imp fun less => .cons less
      · exact .nil
  · exact .nil

/-- A walk goes by the names that lead to the entries, compared one after another. -/
theorem pairwise_below (tree : d.IsTree) (levels : Nat) (dir : Location) :
    (d.below enter levels dir).Pairwise fun b b' => b.names < b'.names := by
  induction levels generalizing dir with
  | zero => exact .nil
  | succ levels ih =>
    rw [below_succ, List.pairwise_flatMap]
    refine ⟨fun listed _ => pairwise_belowOne enter levels dir listed (ih _), ?_⟩
    -- what is listed for one name comes before what is listed for the next
    refine (pairwise_snapshot tree dir).imp fun {x y} less b first b' second => ?_
    obtain ⟨rest, names, -⟩ := (mem_belowOne_iff enter levels dir x b).mp first
    obtain ⟨rest', names', -⟩ := (mem_belowOne_iff enter levels dir y b').mp second
    rw [names, names']
    exact .rel less

end Workbench.Disk
