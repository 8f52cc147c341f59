import Mathlib.Data.List.Forall2
import Workbench.Proofs.Pattern.Language
import Workbench.Script.Rules

/-!
# Rewriting line by line

Where a rule treats each line on its own, whatever line comes next, it rewrites a text line by line.
What may come next is told by the character that it begins with, since a pattern may look for blanks
and go on behind the end of a line.
-/
namespace Workbench

/-- What may follow a line: the end of the text, or the end of the line and then nothing or a line
that begins in one of the expected ways. -/
def Follows (begins : Char → Prop) (tail : List Char) : Prop :=
  tail = [] ∨ ∃ rest, tail = '\n' :: rest ∧ ∀ c ∈ rest.head?, begins c

theorem Follows.of_ending {begins : Char → Prop} {ending : List Char}
    (ends : ending = [] ∨ ending = ['\n']) : Follows begins ending := by
  rcases ends with rfl | rfl
  · exact .inl rfl
  · exact .inr ⟨[], rfl, by simp⟩

namespace RewriteRule

variable {rule : RewriteRule} {begins : Char → Prop} {line line' ending : List Char}

/-- A rule makes one line of another, wherever it stands. -/
def TurnsLine (rule : RewriteRule) (begins : Char → Prop) (line line' : List Char) : Prop :=
  ∀ before tail, Follows begins tail → rule.applyFrom before (line ++ tail) =
    line' ++ rule.applyFrom (line.reverse ++ before) tail

/-- A line is kept if the pattern fits at none of its places. -/
theorem TurnsLine.of_quiet (quiet : ∀ back, back <:+ line → back ≠ [] →
    ∀ tail, Follows begins tail → ∀ before, rule.pattern.FailsAt ⟨before, back ++ tail⟩) :
    rule.TurnsLine begins line line := by
  intro before tail follows
  exact keeps_of_fails (fun back ends nonempty => quiet back ends nonempty tail follows) before

/-- Lines are rewritten one by one, and the ends of the lines are kept. -/
theorem applyFrom_lines (newline : ∀ before rest, rule.pattern.FailsAt ⟨before, '\n' :: rest⟩)
    (ends : ending = [] ∨ ending = ['\n']) {lines lines' : List (List Char)}
    (turns : List.Forall₂ (rule.TurnsLine begins) lines lines')
    (begun : ∀ line ∈ lines, ∃ c ∈ line.head?, begins c) (before : List Char) :
    rule.applyFrom before (['\n'].intercalate lines ++ ending) =
      ['\n'].intercalate lines' ++ ending := by
  have last (before : List Char) : rule.applyFrom before ending = ending := by
    rcases ends with rfl | rfl
    · exact applyFrom_nil before
    · rw [applyFrom_of_fails before '\n' [] (newline before []), applyFrom_nil]
  induction turns generalizing before with
  | nil => exact last before
  | @cons line line' more more' turn further ih =>
    cases further with
    | nil =>
      rw [List.intercalate_singleton, List.intercalate_singleton, turn before _ (.of_ending ends),
        last]
    | @cons next next' rest rest' turn' further =>
      specialize ih fun line later => begun line (List.mem_cons_of_mem _ later)
      have joined (first next : List Char) (rest : List (List Char)) :
          ['\n'].intercalate (first :: next :: rest) ++ ending =
            first ++ '\n' :: (['\n'].intercalate (next :: rest) ++ ending) := by simp
      obtain ⟨c, head, expected⟩ := begun next (by simp)
      have follows : Follows begins ('\n' :: (['\n'].intercalate (next :: rest) ++ ending)) := by
        refine .inr ⟨_, rfl, fun a first => ?_⟩
        obtain ⟨back, rfl⟩ := List.head?_eq_some_iff.mp head
        have same : a = c := by cases rest <;> simpa [eq_comm] using first
        exact same ▸ expected
      rw [joined, joined, turn before _ follows, applyFrom_of_fails _ '\n' _ (newline _ _), ih]

end RewriteRule

/-- Two relations one after the other, element by element. -/
theorem exists_forall₂_between {α β γ : Type} {R : α → β → Prop} {S : β → γ → Prop}
    {xs : List α} {zs : List γ} (both : List.Forall₂ (fun x z => ∃ y, R x y ∧ S y z) xs zs) :
    ∃ ys, List.Forall₂ R xs ys ∧ List.Forall₂ S ys zs := by
  induction both with
  | nil => exact ⟨[], .nil, .nil⟩
  | cons between _ ih =>
    obtain ⟨y, first, second⟩ := between
    obtain ⟨ys, firsts, seconds⟩ := ih
    exact ⟨y :: ys, .cons first firsts, .cons second seconds⟩

namespace Script

/-- Rules that are applied in turn make one line of another, and what is made of it in between is
such a line too. -/
def TurnsLine (begins : Char → Prop) : List RewriteRule → List Char → List Char → Prop
  | [], line, out => line = out
  | rule :: rules, line, out => (∃ c ∈ line.head?, begins c) ∧
      ∃ mid, rule.TurnsLine begins line mid ∧ TurnsLine begins rules mid out

section

variable {begins : Char → Prop} {rules : List RewriteRule} {line out : List Char}

theorem TurnsLine.of_kept (begun : ∃ c ∈ line.head?, begins c)
    (kept : ∀ rule ∈ rules, rule.TurnsLine begins line line) :
    TurnsLine begins rules line line := by
  induction rules with
  | nil => rfl
  | cons rule rules ih =>
    rw [List.forall_mem_cons] at kept
    exact ⟨begun, line, kept.1, ih kept.2⟩

/-- One rule rewrites a line. Those before it keep the line, and those behind it what is made of
it. -/
theorem TurnsLine.of_one {rule : RewriteRule} {later : List RewriteRule}
    (begun : ∃ c ∈ line.head?, begins c) (begun' : ∃ c ∈ out.head?, begins c)
    (kept : ∀ other ∈ rules, other.TurnsLine begins line line)
    (turn : rule.TurnsLine begins line out)
    (kept' : ∀ other ∈ later, other.TurnsLine begins out out) :
    TurnsLine begins (rules ++ rule :: later) line out := by
  induction rules with
  | nil => exact ⟨begun, out, turn, .of_kept begun' kept'⟩
  | cons other rules ih =>
    rw [List.forall_mem_cons] at kept
    exact ⟨begun, line, kept.1, ih kept.2⟩

end

theorem applyAll_lines {begins : Char → Prop} {ending : List Char} {rules : List RewriteRule}
    (newline : ∀ rule ∈ rules, ∀ before rest, rule.pattern.FailsAt ⟨before, '\n' :: rest⟩)
    (ends : ending = [] ∨ ending = ['\n']) {lines outs : List (List Char)}
    (turns : List.Forall₂ (TurnsLine begins rules) lines outs) :
    applyAll rules (['\n'].intercalate lines ++ ending) = ['\n'].intercalate outs ++ ending := by
  induction rules generalizing lines with
  | nil =>
    have same : lines = outs := by simpa [TurnsLine] using turns
    rw [same]
    rfl
  | cons rule rules ih =>
    -- what the first rule makes of the lines, and the others of that
    obtain ⟨mids, first, later⟩ := exists_forall₂_between (turns.imp fun _ _ turn => turn.2)
    have begun : ∀ line ∈ lines, ∃ c ∈ line.head?, begins c := by
      intro line listed
      obtain ⟨n, within, rfl⟩ := List.getElem_of_mem listed
      exact (turns.get within (turns.length_eq ▸ within)).1
    rw [applyAll, List.foldl_cons, RewriteRule.apply,
      RewriteRule.applyFrom_lines (newline rule List.mem_cons_self) ends first begun, ← applyAll]
    exact ih (fun rule listed => newline rule (List.mem_cons_of_mem _ listed)) later

end Script

end Workbench
