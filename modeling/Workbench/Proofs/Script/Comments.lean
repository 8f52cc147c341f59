import Workbench.Proofs.Script.Fronts

/-!
# Comments in place of imports

A rule for imports puts a comment where it fits, and it does not fit where the keyword or one of the
two quotes is missing.
-/
namespace Workbench.Script

open Pattern

theorem two_le_countP_of_reads {front core : Pattern} {xs : List Char}
    {groups : List (Nat × List Char)} (reads : (quoting front core).Reads xs groups) :
    2 ≤ xs.countP (IsQuote ·) := by
  obtain ⟨ys, zs, q, q', _, _, -, -, mark, mark', rfl, -⟩ := (reads_quoting_iff _ _ _ _).mp reads
  simp [List.countP_append, mark, mark']
  omega

namespace IsImportRule

variable {rule : RewriteRule} {front core : Pattern}

/-- The rule does not fit where fewer than two quotes follow. -/
theorem failsAt_of_few (isRule : IsImportRule rule front core) {before after : List Char}
    (few : after.countP (IsQuote ·) < 2) : rule.pattern.FailsAt ⟨before, after⟩ := by
  refine failsAt_of_outcomes isRule.same (failsAt_of_reads fun xs groups rest reads same => ?_)
  obtain ⟨ys, zs, _, _, quoted, -, rfl, -⟩ := reads_seq_iff.mp reads
  have two := two_le_countP_of_reads quoted
  dsimp only at same
  rw [same, List.countP_append, List.countP_append] at few
  omega

/-- A text with fewer than two quotes is kept. -/
theorem applyFrom_of_few (isRule : IsImportRule rule front core) {text : List Char}
    (few : text.countP (IsQuote ·) < 2) (before : List Char) :
    rule.applyFrom before text = text := by
  refine RewriteRule.Keeps.applyFrom_eq (RewriteRule.keeps_of_fails fun back ends _ _ => ?_) before
  rw [List.append_nil]
  exact isRule.failsAt_of_few (Nat.lt_of_le_of_lt ends.sublist.countP_le few)

/-- The rule does not fit where the first letter of the keyword does not come next. -/
theorem failsAt_of_head (isRule : IsImportRule rule front core) {before after : List Char}
    (head : after.head? ≠ some 'i') : rule.pattern.FailsAt ⟨before, after⟩ := by
  refine isRule.failsAt_of_ne fun c more _ same => head ?_
  rw [same]
  rfl

end IsImportRule

theorem IsUnquoted.countP {xs : List Char} (plain : IsUnquoted xs) :
    xs.countP (IsQuote ·) = 0 := by
  simpa [List.countP_eq_zero, IsUnquoted] using plain

/-- What takes the place of an import begins as a comment. -/
theorem exists_fillFrom {rule : RewriteRule} (listed : rule ∈ importRules)
    (groups : List (Nat × List Char)) :
    ∃ text, fillFrom groups rule.replacement = "// ".toList ++ text := by
  rw [importRules_eq] at listed
  simp only [List.mem_cons, List.not_mem_nil, or_false] at listed
  rcases listed with rfl | rfl | rfl | rfl | rfl <;> exact ⟨_, rfl⟩

/-- At each character a rule puts a comment or keeps the character. -/
theorem applyFrom_cons_cases {rule : RewriteRule} (listed : rule ∈ importRules)
    (before : List Char) (a : Char) (rest : List Char) :
    (∃ out, rule.applyFrom before (a :: rest) = '/' :: out) ∨
      rule.applyFrom before (a :: rest) = a :: rule.applyFrom (a :: before) rest := by
  rw [RewriteRule.applyFrom]
  split
  · split
    next fit _ _ =>
      obtain ⟨text, filled⟩ := exists_fillFrom listed fit.groups
      rw [Fit.fill_eq, filled]
      exact .inl ⟨_, rfl⟩
    next => exact .inr rfl
  · exact .inr rfl

end Workbench.Script
