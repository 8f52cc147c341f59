import Mathlib.Data.List.Forall2
import Workbench.Proofs.Pattern.Language

/-!
# What stands behind

A pattern with no edges does not look at what stands behind it. So a rule for such a pattern
rewrites the rest of a text as it would rewrite that rest alone.
-/
namespace Workbench

/-- Two fits that have come to the same rest of a text and remember the same stretches. -/
def Fit.Alike (fit fit' : Fit) : Prop :=
  fit.cursor.after = fit'.cursor.after ∧ fit.groups = fit'.groups

namespace Pattern

theorem runs_alike (wish : Preference) (kind : CharClass) (before before' after : List Char) :
    List.Forall₂ (fun c c' : Cursor => c.after = c'.after) (runs wish kind before after)
      (runs wish kind before' after) := by
  induction after generalizing before before' with
  | nil => exact .cons rfl .nil
  | cons c rest ih =>
    unfold runs
    split
    · cases wish with
      | more => exact List.rel_append (ih (c :: before) (c :: before')) (.cons rfl .nil)
      | fewer => exact .cons rfl (ih (c :: before) (c :: before'))
    · exact .cons rfl .nil

/-- What a pattern with no edges makes of alike fits is alike. -/
theorem outcomes_alike {p : Pattern} (edgeless : p.isEdgeless = true) {fit fit' : Fit}
    (alike : fit.Alike fit') : List.Forall₂ Fit.Alike (p.outcomes fit) (p.outcomes fit') := by
  induction p generalizing fit fit' with
  | one kind =>
    obtain ⟨after, groups⟩ := alike
    unfold outcomes
    rw [after]
    cases fit'.cursor.after with
    | nil => exact .nil
    | cons c rest =>
      dsimp only
      split
      · exact .cons ⟨rfl, groups⟩ .nil
      · exact .nil
  | edge => cases edgeless
  | seq p q ihp ihq =>
    rw [isEdgeless, Bool.and_eq_true] at edgeless
    exact List.rel_flatMap (ihp edgeless.1 alike) fun _ _ between => ihq edgeless.2 between
  | maybe part ih => exact List.rel_append (ih edgeless alike) (.cons alike .nil)
  | many wish kind =>
    unfold outcomes
    rw [alike.1, List.forall₂_map_left_iff, List.forall₂_map_right_iff]
    exact (runs_alike wish kind _ _ _).imp fun _ _ after => ⟨after, alike.2⟩
  | capture number part ih =>
    unfold outcomes
    rw [List.forall₂_map_left_iff, List.forall₂_map_right_iff]
    refine (ih edgeless alike).imp fun done done' ends => ⟨ends.1, ?_⟩
    have stretch : fit.cursor.upTo done.cursor = fit'.cursor.upTo done'.cursor := by
      rw [Cursor.upTo, Cursor.upTo, alike.1, ends.1]
    change (number, _) :: done.groups = (number, _) :: done'.groups
    rw [stretch, ends.2]

end Pattern

/-- A rule for a pattern with no edges treats the rest of a text the same wherever it stands. -/
theorem RewriteRule.applyFrom_of_isEdgeless {rule : RewriteRule}
    (edgeless : rule.pattern.isEdgeless = true) (before before' after : List Char) :
    rule.applyFrom before after = rule.applyFrom before' after := by
  -- induction on the rest, of which a fit and a character that is kept leave less
  induction size : after.length using Nat.strongRecOn generalizing before before' after with
  | _ size ih =>
    cases after with
    | nil => rw [applyFrom, applyFrom]
    | cons c rest =>
      have kept := ih rest.length (by simp [← size]) (c :: before) (c :: before') rest rfl
      have alike : Fit.Alike ⟨⟨before, c :: rest⟩, []⟩ ⟨⟨before', c :: rest⟩, []⟩ := ⟨rfl, rfl⟩
      have same := Pattern.outcomes_alike edgeless alike
      rw [applyFrom, applyFrom, Pattern.fitAt?_eq_outcomes, Pattern.fitAt?_eq_outcomes]
      generalize rule.pattern.outcomes ⟨⟨before, c :: rest⟩, []⟩ = ways at same ⊢
      generalize rule.pattern.outcomes ⟨⟨before', c :: rest⟩, []⟩ = ways' at same ⊢
      cases same with
      | nil => simpa using kept
      | @cons fit fit' _ _ alike _ =>
        obtain ⟨after, groups⟩ := alike
        dsimp only [List.head?_cons]
        rw [after]
        split
        next taken =>
          have further := ih fit'.cursor.after.length (by simp [← size]; omega)
            fit.cursor.before fit'.cursor.before fit'.cursor.after rfl
          rw [Fit.fill_eq, Fit.fill_eq, groups, further]
        next => rw [kept]

/-- The rest behind a text that is kept is rewritten as if it stood alone. -/
theorem RewriteRule.Keeps.apply {rule : RewriteRule} {xs rest : List Char}
    (keeps : rule.Keeps xs rest) (edgeless : rule.pattern.isEdgeless = true) :
    rule.apply (xs ++ rest) = xs ++ rule.apply rest := by
  rw [RewriteRule.apply, keeps, applyFrom_of_isEdgeless edgeless _ []]
  rfl

end Workbench
