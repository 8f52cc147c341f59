import Workbench.Proofs.Pattern.Cut
import Workbench.Script.Rules

/-! What rewriting makes of the front of a text, whatever follows it. A rule goes from left to right,
so that a front in which its pattern does not fit is kept, and a fit within it is replaced. -/
namespace Workbench

namespace Pattern

/-- The pattern fits at no place of a front, whatever follows it. -/
def IsQuiet (p : Pattern) (before front : List Char) : Prop :=
  ∀ tail, ∀ n < front.length, p.FailsAt (Cursor.past ⟨before, front ++ tail⟩ n)

/-- Whether the pattern is seen to fail at each place of a front. -/
def failsAlong (p : Pattern) (tail before : List Char) : List Char → Bool
  | [] => true
  | c :: rest =>
    (p.fitAt? ⟨before, c :: (rest ++ tail)⟩).isNone && p.failsAlong tail (c :: before) rest

theorem IsQuiet.of_failsAlong (p : Pattern) (before front : List Char)
    (fails : ∀ tail, p.failsAlong tail before front = true) : p.IsQuiet before front := by
  intro tail n within
  specialize fails tail
  induction front generalizing before n with
  | nil => cases within
  | cons c rest ih =>
    rw [failsAlong, Bool.and_eq_true, Option.isNone_iff_eq_none] at fails
    -- a place is the first one, or one behind the first character
    cases n with
    | zero => exact (p.fitAt?_eq_none_iff _).mp fails.1
    | succ n =>
      have later := ih (c :: before) fails.2 n (Nat.lt_of_succ_lt_succ within)
      rwa [List.cons_append, Nat.add_comm, ← Cursor.past_past, Cursor.past_one]

end Pattern

namespace RewriteRule

variable (rule : RewriteRule) (before front : List Char)

theorem applyFrom_quiet (quiet : rule.pattern.IsQuiet before front) (tail : List Char) :
    rule.applyFrom before (front ++ tail) =
      front ++ rule.applyFrom (front.reverse ++ before) tail :=
  applyFrom_gap front tail before (quiet tail)

/-- Of a front in which a rule finds one stretch, that stretch is replaced. -/
theorem apply_front (takes : 0 < rule.pattern.least) (gap found behind replaced : List Char)
    (captures : List Char → List (Nat × Cursor × Cursor)) (first : rule.pattern.IsQuiet [] gap)
    (fits : ∀ tail, rule.pattern.fitAt? ⟨gap.reverse, found ++ tail⟩ =
      some ⟨⟨found.reverse ++ gap.reverse, tail⟩, captures tail⟩)
    (fills : ∀ tail, Fit.fill ⟨⟨found.reverse ++ gap.reverse, tail⟩, captures tail⟩
      rule.replacement = replaced)
    (last : rule.pattern.IsQuiet (found.reverse ++ gap.reverse) behind) (tail : List Char) :
    ∃ tail', rule.apply (gap ++ (found ++ (behind ++ tail))) =
      gap ++ (replaced ++ (behind ++ tail')) := by
  have best := (rule.pattern.fitAt?_eq_some_iff _ _).mp (fits (behind ++ tail))
  have replaces := applyFrom_of_best takes _ _ best
  dsimp only at replaces
  -- the rule goes on at the end of what it found, and finds nothing more in the front
  refine ⟨rule.applyFrom (behind.reverse ++ (found.reverse ++ gap.reverse)) tail, ?_⟩
  rw [apply, rule.applyFrom_quiet [] gap first, List.append_nil, replaces, fills,
    rule.applyFrom_quiet _ behind last]

end RewriteRule

namespace Script

open Pattern

/-- Rules that do not fit in a front leave it at the front. -/
theorem applyAll_quiet (rules : List RewriteRule) (front : List Char)
    (quiet : ∀ rule ∈ rules, rule.pattern.IsQuiet [] front) (tail : List Char) :
    ∃ tail', applyAll rules (front ++ tail) = front ++ tail' := by
  induction rules generalizing tail with
  | nil => exact ⟨tail, rfl⟩
  | cons rule rest ih =>
    -- what the first rule makes of the rest of the text is of no concern to the next
    have kept := rule.applyFrom_quiet [] front (quiet rule List.mem_cons_self) tail
    obtain ⟨tail', same⟩ := ih (fun rule listed => quiet rule (List.mem_cons_of_mem _ listed))
      (rule.applyFrom (front.reverse ++ []) tail)
    exact ⟨tail', by rw [applyAll, List.foldl_cons, RewriteRule.apply, kept, ← applyAll, same]⟩

end Script

end Workbench
