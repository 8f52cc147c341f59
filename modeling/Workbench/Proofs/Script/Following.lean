import Workbench.Proofs.Pattern.Behind
import Workbench.Proofs.Script.Comments
import Workbench.Proofs.Script.Statement

/-!
# What follows an import

An import that a rule reads in full becomes a comment up to the end of the line. What stands behind
the import is rewritten as if it stood alone, so that the comment takes in the first line of it.
-/
namespace Workbench.Script

open Pattern

theorem isEdgeless_of_mem : ∀ rule ∈ importRules, rule.pattern.isEdgeless = true := by decide

/-- What a rule leaves begins as the text did, up to the first slash. -/
theorem prefix_of_slashless {rule : RewriteRule} (listed : rule ∈ importRules)
    {xs : List Char} (slashless : '/' ∉ xs) {before rest : List Char}
    (begins : xs <+: rule.applyFrom before rest) : xs <+: rest := by
  induction xs generalizing before rest with
  | nil => exact List.nil_prefix
  | cons x xs ih =>
    rw [List.mem_cons, not_or] at slashless
    cases rest with
    | nil => rwa [RewriteRule.applyFrom_nil] at begins
    | cons a rest =>
      rcases applyFrom_cons_cases listed before a rest with ⟨out, same⟩ | same
      · -- a comment begins with a slash
        rw [same] at begins
        exact absurd (List.cons_prefix_cons.mp begins).1.symm slashless.1
      · rw [same] at begins
        obtain ⟨rfl, later⟩ := List.cons_prefix_cons.mp begins
        exact List.cons_prefix_cons.mpr ⟨rfl, ih slashless.2 later⟩

theorem prefix_append_of_slashless {rule : RewriteRule} (listed : rule ∈ importRules)
    {xs : List Char} (slashless : '/' ∉ xs) {front before rest : List Char}
    (begins : xs <+: front ++ rule.applyFrom before rest) : xs <+: front ++ rest := by
  induction front generalizing xs with
  | nil => exact prefix_of_slashless listed slashless begins
  | cons a front ih =>
    rcases List.prefix_cons_iff.mp begins with rfl | ⟨xs, rfl, later⟩
    · exact List.nil_prefix
    · rw [List.mem_cons, not_or] at slashless
      exact List.cons_prefix_cons.mpr ⟨rfl, ih slashless.2 later⟩

/-- Where each rule leaves what it is applied to suitable, and keeps a text in front of all that is
suitable, the rules keep that text. -/
theorem applyAll_append_of_kept {suits : List Char → Prop} {rules : List RewriteRule}
    {xs rest : List Char} (suited : ∀ rule ∈ rules, ∀ rest, suits rest → suits (rule.apply rest))
    (kept : ∀ rule ∈ rules, ∀ rest, suits rest → rule.apply (xs ++ rest) = xs ++ rule.apply rest)
    (suitable : suits rest) :
    applyAll rules (xs ++ rest) = xs ++ applyAll rules rest ∧ suits (applyAll rules rest) := by
  induction rules generalizing rest with
  | nil => exact ⟨rfl, suitable⟩
  | cons rule rules ih =>
    rw [List.forall_mem_cons] at suited kept
    have further := ih suited.2 kept.2 (suited.1 rest suitable)
    rw [applyAll, applyAll, List.foldl_cons, List.foldl_cons, kept.1 rest suitable]
    exact further

/-! ### Statements -/

/-- An import that a rule reads in full, perhaps with a semicolon. It has one pair of braces at
most, and the specifier is written on one line and holds no import of its own. -/
structure Statement extends Quotation where
  stop : List Char
  stops : stop = [';'] ∨ stop = []
  head_flat : head.count '\x7b' ≤ 1
  specifier_line : '\n' ∉ specifier
  specifier_keyless : ∀ back, back <:+ specifier → ∀ c more, Text.isBlank c = true →
    back ≠ "import".toList ++ c :: more
  matched : ∃ rule ∈ importRules, ∃ groups, rule.pattern.Reads (toQuotation.text ++ stop) groups

/-- A specifier that ends as an import begins, in front of a text that goes on with that import, up
to its quote. -/
def Revives (specifier rest : List Char) : Prop :=
  ∃ back, back ≠ [] ∧ back <:+ specifier ∧ ∃ gap q, IsGap gap ∧ IsQuote q ∧
    "import".toList ++ (gap ++ [q]) <+: back ++ rest

/-- A comment that the later rules keep in front of all that is suitable. -/
structure IsComment (suits : List Char → Prop) (later : List RewriteRule) (text : List Char) :
    Prop where
  begins : "// ".toList <+: text
  oneLine : '\n' ∉ text
  kept : ∀ rule ∈ later, ∀ rest, suits rest → rule.apply (text ++ rest) = text ++ rule.apply rest

namespace Statement

variable (s : Statement)

def chars : List Char := s.toQuotation.text ++ s.stop

def text : String := String.ofList s.chars

/-- What follows is no part of the import, and the specifier does not become a part of what
follows. -/
structure Apart (rest : List Char) : Prop where
  stop : s.stop = [] → ¬[';'] <+: rest
  specifier : ¬Revives s.specifier rest

variable {s}

theorem Apart.apply {rule : RewriteRule} (listed : rule ∈ importRules) {rest : List Char}
    (apart : s.Apart rest) : s.Apart (rule.apply rest) where
  stop empty begins := apart.stop empty (prefix_of_slashless listed (by decide) begins)
  specifier := by
    rintro ⟨back, nonempty, ends, gap, q, isGap, mark, begins⟩
    have slashless : '/' ∉ "import".toList ++ (gap ++ [q]) := by
      simp only [List.mem_append, List.mem_singleton, not_or]
      refine ⟨by decide, fun inside => absurd (isGap.2 _ inside) (by decide), ?_⟩
      rintro rfl
      exact absurd mark (by decide)
    -- no comment has come into the import that they would make
    exact apart.specifier ⟨back, nonempty, ends, gap, q, isGap, mark,
      prefix_append_of_slashless listed slashless begins⟩

variable {rule : RewriteRule} {front core : Pattern}

/-- From within the specifier on, no rule fits. -/
theorem failsAt_inner (isRule : IsImportRule rule front core) {back : List Char}
    (ends : back <:+ s.specifier ++ [s.mark']) (nonempty : back ≠ []) (before rest : List Char) :
    rule.pattern.FailsAt ⟨before, back ++ rest⟩ := by
  have outside : s.mark' ∉ "import".toList := by
    rcases s.isQuote' with same | same <;> rw [same] <;> decide
  have marked (left : List Char) (within : left <:+ s.specifier) :
      rule.pattern.FailsAt ⟨before, left ++ s.mark' :: rest⟩ :=
    isRule.failsAt_of_ne fun c more blank =>
      ne_keyword (fun between => s.specifier_keyless left within c between blank) outside
        s.isQuote'.not_blank blank
  rcases suffix_append_cases ends with ends | ⟨left, -, within, rfl⟩
  · rcases List.suffix_cons_iff.mp ends with rfl | short
    · exact marked [] (List.nil_suffix)
    · exact absurd (List.suffix_nil.mp short) nonempty
  · simpa using marked left within

/-- A rule that reads no end of the front, or not the specifier, keeps the import. -/
theorem apply_of_apart (listed : rule ∈ importRules) (isRule : IsImportRule rule front core)
    (apart : ∀ back, back <:+ s.head → ∀ before behind, front.Reads back before →
      ¬core.Reads s.specifier behind) (rest : List Char) :
    rule.apply (s.chars ++ rest) =
      s.chars ++ rule.apply rest := by
  have keeps := isRule.keeps_of_apart s.toQuotation (s.stop ++ rest) apart
    fun back ends nonempty before => failsAt_inner isRule ends nonempty before _
  have stop : rule.Keeps s.stop rest := by
    refine RewriteRule.keeps_of_fails fun back ends nonempty before => isRule.failsAt_of_head ?_
    rcases s.stops with stop | stop <;> rw [stop] at ends
    · rcases List.suffix_cons_iff.mp ends with rfl | short
      · simp
      · exact absurd (List.suffix_nil.mp short) nonempty
    · exact absurd (List.suffix_nil.mp ends) nonempty
  exact (keeps.append stop).apply (isEdgeless_of_mem rule listed)

/-- A rule that reads the import reads its front and its specifier. -/
theorem reads_of_matched (listed : rule ∈ importRules) (isRule : IsImportRule rule front core)
    (matched : ∃ groups, rule.pattern.Reads s.chars groups) :
    (∃ before, front.Reads s.head before) ∧ ∃ behind, core.Reads s.specifier behind := by
  have marked : ((quoting front core).marked ';').isEdgeless = true := by
    simp only [Pattern.marked, isEdgeless, isRule.edgeless, Bool.and_self]
  rw [Pattern.exists_reads_iff (isEdgeless_of_mem rule listed), isRule.same,
    ← Pattern.exists_reads_iff marked] at matched
  obtain ⟨_, reads⟩ := matched
  obtain ⟨_, more, _, _, quoted, -, same, -⟩ := reads_seq_iff.mp reads
  obtain ⟨before, behind, opening, closing, -⟩ := isRule.eq_of_reads s.toQuotation s.stop more
    List.suffix_rfl quoted (by simp [← same, chars, Quotation.text])
  exact ⟨⟨before, opening⟩, behind, closing⟩

/-- A rule that reads the import puts a comment in its place. -/
theorem apply_of_matched (listed : rule ∈ importRules) (isRule : IsImportRule rule front core)
    (matched : ∃ groups, rule.pattern.Reads s.chars groups)
    {rest : List Char} (apart : s.Apart rest) : ∃ opened closed, front.Reads s.head opened ∧
      core.Reads s.specifier closed ∧ rule.apply (s.chars ++ rest) =
        fillFrom (closed ++ opened) rule.replacement ++ rule.apply rest := by
  obtain ⟨opening, closing⟩ := reads_of_matched listed isRule matched
  have stops : s.stop = [';'] ∨ s.stop = [] ∧ rest.head? ≠ some ';' := by
    refine s.stops.imp_right fun empty => ⟨empty, fun head => apart.stop empty ?_⟩
    obtain ⟨more, rfl⟩ := List.head?_eq_some_iff.mp head
    exact ⟨more, rfl⟩
  obtain ⟨opened, closed, own, own', rewritten⟩ :=
    isRule.applyFrom_of_reads s.toQuotation opening closing stops []
  rw [RewriteRule.applyFrom_of_isEdgeless (isEdgeless_of_mem rule listed) (_ ++ []) []] at rewritten
  refine ⟨opened, closed, own, own', ?_⟩
  rw [chars, List.append_assoc]
  exact rewritten

/-- A comment takes the place of an import, and what follows is rewritten as if it stood alone. -/
def TurnsComment (s : Statement) (rest : List Char) : Prop :=
  ∃ comment, "// ".toList <+: comment ∧ '\n' ∉ comment ∧
    applyAll importRules (s.chars ++ rest) = comment ++ applyAll importRules rest

/-- One rule puts a comment in the place of an import. Those before it keep the import, and those
behind it the comment. -/
theorem turnsComment_of_one {rules later : List RewriteRule}
    (split : importRules = rules ++ rule :: later)
    (kept : ∀ rule ∈ rules, ∀ rest, rule.apply (s.chars ++ rest) =
      s.chars ++ rule.apply rest)
    (turned : ∀ rest, s.Apart rest → ∃ comment, IsComment s.Apart later comment ∧
      rule.apply (s.chars ++ rest) = comment ++ rule.apply rest)
    {rest : List Char} (apart : s.Apart rest) : s.TurnsComment rest := by
  have listed : ∀ other ∈ rules ++ rule :: later, other ∈ importRules := by simp [split]
  rw [List.forall_mem_append, List.forall_mem_cons] at listed
  obtain ⟨first, here, last⟩ := listed
  -- what follows stays apart from the import under each of the rules
  obtain ⟨before, apart'⟩ := applyAll_append_of_kept
    (fun other member _ => Apart.apply (first other member))
    (fun other member rest _ => kept other member rest) apart
  obtain ⟨comment, isComment, here'⟩ := turned _ apart'
  obtain ⟨behind, -⟩ := applyAll_append_of_kept
    (fun other member _ => Apart.apply (last other member)) isComment.kept (apart'.apply here)
  refine ⟨comment, isComment.begins, isComment.oneLine, ?_⟩
  simp only [split, applyAll, List.foldl_append, List.foldl_cons] at before here' behind ⊢
  rw [before, here', behind]

/-! ### The comments -/

/-- A comment without the keyword is kept by every rule. -/
theorem isComment_of_isKeyless {suits : List Char → Prop} {later : List RewriteRule}
    {text : List Char} (within : ∀ rule ∈ later, rule ∈ importRules)
    (begins : "// ".toList <+: text) (oneLine : '\n' ∉ text) (keyless : isKeyless text = true) :
    IsComment suits later text where
  begins := begins
  oneLine := oneLine
  kept rule listed rest _ := by
    obtain ⟨_, _, isRule⟩ := isImportRule_of_mem (within rule listed)
    have keeps : rule.Keeps text rest := RewriteRule.keeps_of_fails fun back ends nonempty before =>
      failsAt_of_isKeyless isRule keyless ends nonempty before rest
    exact keeps.apply (isEdgeless_of_mem rule (within rule listed))

/-- In the comment for an import with a clause, the rule for imports that name nothing fits only
where the specifier ends as such an import begins. -/
theorem apply_effect_of_clause {clause specifier rest : List Char} (plain : IsUnquoted clause)
    (plain' : IsUnquoted specifier) (apart : ¬Revives specifier rest) :
    effectRule.apply ("// import ".toList ++ clause ++ " from ".toList ++ specifier ++ rest) =
      "// import ".toList ++ clause ++ " from ".toList ++ specifier ++ effectRule.apply rest := by
  refine RewriteRule.Keeps.apply (RewriteRule.keeps_of_fails fun back ends nonempty before => ?_)
    (by decide)
  refine failsAt_effect_of_ne fun gap q more isGap mark same => ?_
  have whole : IsUnquoted ("// import ".toList ++ clause ++ " from ".toList ++ specifier) :=
    .append (.append (.append (by decide) plain) (by decide)) plain'
  -- the comment holds no quote, so what is found of it are the keyword and blanks
  have cut : back <+: "import".toList ++ gap := by
    rw [← List.append_assoc] at same
    rcases List.append_eq_append_iff.mp same with ⟨between, here, -⟩ | ⟨between, here, behind⟩
    · exact ⟨between, here.symm⟩
    · rcases List.cons_eq_append_iff.mp behind with ⟨rfl, -⟩ | ⟨_, rfl, -⟩
      · exact ⟨[], by simp [here]⟩
      · exact absurd mark (whole q (ends.subset (by simp [here])))
  rcases suffix_append_cases ends with ends | ⟨left, longer, within, rfl⟩
  · exact apart ⟨back, nonempty, ends, gap, q, isGap, mark, more, by simp [same]⟩
  · -- what is found would begin within the second keyword, or behind it
    have free : 'f' ∉ left := by
      intro listed
      have inside := cut.subset (List.mem_append_left _ listed)
      rcases List.mem_append.mp inside with stray | stray
      · exact absurd stray (by decide)
      · exact absurd (isGap.2 _ stray) (by decide)
    have tail : left <:+ "rom ".toList := by
      have cut : " from ".toList = [' '] ++ 'f' :: "rom ".toList := rfl
      rw [cut, ← List.append_assoc] at within
      exact suffix_of_notMem within free
    obtain ⟨c, left, rfl⟩ := List.exists_cons_of_ne_nil longer
    obtain rfl : c = 'i' := (List.cons_prefix_cons.mp cut).1
    exact absurd (tail.subset List.mem_cons_self) (by decide)

variable {s : Statement} {rest : List Char}

/-- A rule that puts a fixed comment. -/
theorem turnsComment_of_fixed {rule : RewriteRule} {front core : Pattern}
    (isRule : IsImportRule rule front core) {rules later : List RewriteRule}
    (split : importRules = rules ++ rule :: later) {comment : String}
    (fixed : rule.replacement = [.text comment])
    (matched : ∃ groups, rule.pattern.Reads s.chars groups)
    (kept : ∀ rule ∈ rules, ∀ rest, rule.apply (s.chars ++ rest) = s.chars ++ rule.apply rest)
    (begins : "// ".toList <+: comment.toList) (oneLine : '\n' ∉ comment.toList)
    (keyless : isKeyless comment.toList = true) (apart : s.Apart rest) :
    s.TurnsComment rest := by
  have listed : rule ∈ importRules := by simp [split]
  have within : ∀ rule ∈ later, rule ∈ importRules := by simp +contextual [split]
  refine turnsComment_of_one split kept (fun rest apart => ?_) apart
  obtain ⟨opened, closed, -, -, turned⟩ := apply_of_matched listed isRule matched apart
  refine ⟨_, ?_, turned⟩
  have text : fillFrom (closed ++ opened) rule.replacement = comment.toList := by
    simp [fixed, fillFrom]
  rw [text]
  exact isComment_of_isKeyless within begins oneLine keyless

theorem keeps_of_specifier {rule : RewriteRule} {front core : Pattern}
    (listed : rule ∈ importRules) (isRule : IsImportRule rule front core)
    (apart : ∀ groups, ¬core.Reads s.specifier groups) (rest : List Char) :
    rule.apply (s.chars ++ rest) = s.chars ++ rule.apply rest :=
  apply_of_apart listed isRule (fun _ _ _ groups _ => apart groups) rest

/-- The rules for the view library keep the import of a file. -/
theorem keeps_packages (isFile : s.specifier.head? = some '.') :
    ∀ rule ∈ [reactRule, namedRule, domRule], ∀ rest,
      rule.apply (s.chars ++ rest) = s.chars ++ rule.apply rest := by
  have apart (groups : List (Nat × List Char)) := (not_reads_packages isFile groups).1
  have apart' (groups : List (Nat × List Char)) := (not_reads_packages isFile groups).2
  exact List.forall_mem_cons.mpr
    ⟨keeps_of_specifier (by simp [importRules_eq]) isImportRule_react apart,
    List.forall_mem_cons.mpr
      ⟨keeps_of_specifier (by simp [importRules_eq]) isImportRule_named apart,
      List.forall_mem_singleton.mpr
        (keeps_of_specifier (by simp [importRules_eq]) isImportRule_dom apart')⟩⟩

theorem turnsComment_react (matched : ∃ groups, reactRule.pattern.Reads s.chars groups)
    (apart : s.Apart rest) : s.TurnsComment rest := by
  have split : importRules =
    [] ++ reactRule :: [namedRule, domRule, relativeRule, effectRule] := rfl
  exact turnsComment_of_fixed isImportRule_react split rfl matched (by simp) (by decide) (by decide)
    (by decide) apart

theorem turnsComment_named (matched : ∃ groups, namedRule.pattern.Reads s.chars groups)
    (apart : s.Apart rest) : s.TurnsComment rest := by
  obtain ⟨⟨_, named⟩, -⟩ := reads_of_matched (by simp [importRules_eq]) isImportRule_named matched
  have kept := apply_of_apart (by simp [importRules_eq]) isImportRule_react
    fun back ends _ _ reads _ => not_reads_react_of_named named s.head_flat ends reads
  have split : importRules = [reactRule] ++ namedRule :: [domRule, relativeRule, effectRule] := rfl
  exact turnsComment_of_fixed isImportRule_named split rfl matched
    (List.forall_mem_singleton.mpr kept) (by decide) (by decide) (by decide) apart

theorem turnsComment_dom (matched : ∃ groups, domRule.pattern.Reads s.chars groups)
    (apart : s.Apart rest) : s.TurnsComment rest := by
  obtain ⟨-, package⟩ := reads_of_matched (by simp [importRules_eq]) isImportRule_dom matched
  have other : s.specifier ≠ "react".toList := fun same => by
    rcases (reads_domPackage_iff _).mp package with same' | same' <;>
      exact absurd (same.symm.trans same') (by decide)
  have kept : ∀ rule ∈ [reactRule, namedRule], ∀ rest,
      rule.apply (s.chars ++ rest) = s.chars ++ rule.apply rest :=
    List.forall_mem_cons.mpr
      ⟨keeps_of_specifier (by simp [importRules_eq]) isImportRule_react (not_reads_react other),
      List.forall_mem_singleton.mpr
        (keeps_of_specifier (by simp [importRules_eq]) isImportRule_named (not_reads_react other))⟩
  have split : importRules = [reactRule, namedRule] ++ domRule :: [relativeRule, effectRule] := rfl
  exact turnsComment_of_fixed isImportRule_dom split rfl matched kept (by decide) (by decide)
    (by decide) apart

theorem turnsComment_relative (matched : ∃ groups, relativeRule.pattern.Reads s.chars groups)
    (apart : s.Apart rest) : s.TurnsComment rest := by
  have listed : relativeRule ∈ importRules := by simp [importRules_eq]
  obtain ⟨-, _, file⟩ := reads_of_matched listed isImportRule_relative matched
  have kept := keeps_packages (reads_capture_relativeSpecifier file).2
  have split : importRules =
    [reactRule, namedRule, domRule] ++ relativeRule :: [effectRule] := rfl
  refine turnsComment_of_one split kept (fun rest apart => ?_) apart
  obtain ⟨_, _, opening, closing, turned⟩ :=
    apply_of_matched listed isImportRule_relative matched apart
  obtain ⟨_, clause, _, _, -, -, -, -, plain, rfl, -⟩ := (reads_clauseFront_iff _ _).mp opening
  obtain rfl := (reads_capture_relativeSpecifier closing).1
  have text : fillFrom ([(2, s.specifier)] ++ [(1, clause)]) relativeRule.replacement =
      "// import ".toList ++ clause ++ " from ".toList ++ s.specifier := by
    simp [fillFrom, relativeRule, List.lookup_cons]
  have unquoted : IsUnquoted clause := by
    rintro c inside (rfl | rfl) <;> exact absurd (plain _ inside) (by decide)
  have inner : '\n' ∉ clause := fun inside => absurd (plain _ inside) (by decide)
  refine ⟨_, ?_, turned⟩
  rw [text]
  refine ⟨⟨"import ".toList ++ clause ++ " from ".toList ++ s.specifier, by simp⟩, ?_, ?_⟩
  · simp [inner, s.specifier_line]
  · exact List.forall_mem_singleton.mpr fun rest apart =>
      apply_effect_of_clause unquoted s.specifier_plain apart.specifier

theorem turnsComment_effect (matched : ∃ groups, effectRule.pattern.Reads s.chars groups)
    (apart : s.Apart rest) : s.TurnsComment rest := by
  have listed : effectRule ∈ importRules := by simp [importRules_eq]
  obtain ⟨⟨_, effect⟩, _, file⟩ := reads_of_matched listed isImportRule_effect matched
  have clauseless := apply_of_apart (by simp [importRules_eq]) isImportRule_relative
    fun back ends _ _ reads _ => not_reads_clause_of_reads_effect effect ends reads
  have kept := List.forall_mem_append.mpr
    ⟨keeps_packages (reads_capture_relativeSpecifier file).2,
      List.forall_mem_singleton.mpr clauseless⟩
  have split : importRules =
    ([reactRule, namedRule, domRule] ++ [relativeRule]) ++ effectRule :: [] := rfl
  refine turnsComment_of_one split kept (fun rest apart => ?_) apart
  obtain ⟨_, _, opening, closing, turned⟩ :=
    apply_of_matched listed isImportRule_effect matched apart
  obtain rfl := ((reads_effectFront_iff _ _).mp opening).1
  obtain rfl := (reads_capture_relativeSpecifier closing).1
  have text : fillFrom ([(1, s.specifier)] ++ []) effectRule.replacement =
      "// import ".toList ++ s.specifier := by
    simp [fillFrom, effectRule, List.lookup_cons]
  refine ⟨_, ?_, turned⟩
  rw [text]
  exact ⟨⟨"import ".toList ++ s.specifier, by simp⟩, by simp [s.specifier_line], by simp⟩

/-- One of the rules puts a comment in the place of an import. -/
theorem turnsComment (apart : s.Apart rest) : s.TurnsComment rest := by
  obtain ⟨rule, listed, matched⟩ := s.matched
  rw [importRules_eq] at listed
  simp only [List.mem_cons, List.not_mem_nil, or_false] at listed
  rcases listed with rfl | rfl | rfl | rfl | rfl
  · exact turnsComment_react matched apart
  · exact turnsComment_named matched apart
  · exact turnsComment_dom matched apart
  · exact turnsComment_relative matched apart
  · exact turnsComment_effect matched apart

end Statement

/-! ### The line of the comment -/

/-- Whether a text stands outside of a comment in front of it: nothing of it is on the line of the
comment. -/
def StandsOutside (text : List Char) : Prop := ∀ c ∈ text.head?, c = '\n'

theorem standsOutside_apply_iff {rule : RewriteRule} (listed : rule ∈ importRules)
    (text : List Char) : StandsOutside (rule.apply text) ↔ StandsOutside text := by
  cases text with
  | nil => rw [RewriteRule.apply, RewriteRule.applyFrom_nil]
  | cons a rest =>
    obtain ⟨_, _, isRule⟩ := isImportRule_of_mem listed
    by_cases newline : a = '\n'
    · subst newline
      rw [RewriteRule.apply, RewriteRule.applyFrom_of_fails _ _ _ (isRule.newline _ _)]
      simp [StandsOutside]
    · rcases applyFrom_cons_cases listed [] a rest with ⟨_, out⟩ | out <;>
        simp [StandsOutside, RewriteRule.apply, out, newline]

theorem standsOutside_applyAll_iff {rules : List RewriteRule}
    (listed : ∀ rule ∈ rules, rule ∈ importRules) (text : List Char) :
    StandsOutside (applyAll rules text) ↔ StandsOutside text := by
  induction rules generalizing text with
  | nil => rfl
  | cons rule rules ih =>
    rw [List.forall_mem_cons] at listed
    rw [← standsOutside_apply_iff listed.1 text]
    exact ih listed.2 _

/-- An import that a rule reads in full becomes a comment, and what follows is rewritten as if it
stood alone. It stands outside of the comment exactly if it begins with a new line. -/
theorem neutralizeImports_statement (s : Statement) (rest : String)
    (apart : s.Apart rest.toList) : ∃ comment : String,
      "// ".toList <+: comment.toList ∧ '\n' ∉ comment.toList ∧
        neutralizeImports (s.text ++ rest) = comment ++ neutralizeImports rest ∧
        (StandsOutside (neutralizeImports rest).toList ↔ StandsOutside rest.toList) := by
  obtain ⟨comment, begins, oneLine, turned⟩ := s.turnsComment apart
  refine ⟨String.ofList comment, by simpa using begins, by simpa using oneLine, ?_, ?_⟩
  · apply String.toList_injective
    simpa [neutralizeImports, Statement.text] using turned
  · simpa [neutralizeImports] using standsOutside_applyAll_iff (fun _ listed => listed) rest.toList

def appImport : Statement where
  head := "import App from ".toList
  mark := '\''
  specifier := "./App".toList
  mark' := '\''
  stop := [';']
  head_closed := by decide
  head_plain := by decide
  isQuote := by decide
  specifier_plain := by decide
  isQuote' := by decide
  stops := .inl rfl
  head_flat := by decide
  specifier_line := by decide
  specifier_keyless back ends c more _ same := by
    have inside := ends.subset (same ▸ List.mem_cons_self : 'i' ∈ back)
    exact absurd inside (by decide)
  matched := ⟨relativeRule, by simp [importRules_eq],
    (Pattern.exists_reads_iff (by decide) _).mpr (by decide +kernel)⟩

/-- Code behind the semicolon of an import comes to be in the comment. -/
theorem code_in_comment : appImport.Apart " render();\nlet a;".toList ∧
    ¬StandsOutside " render();\nlet a;".toList ∧
    neutralizeImports (appImport.text ++ " render();\nlet a;") =
      "// import App from ./App render();\nlet a;" ∧
    ∃ comment : String, "// ".toList <+: comment.toList ∧ '\n' ∉ comment.toList ∧
      neutralizeImports (appImport.text ++ " render();\nlet a;") =
        comment ++ neutralizeImports " render();\nlet a;" ∧
      (StandsOutside (neutralizeImports " render();\nlet a;").toList ↔
        StandsOutside " render();\nlet a;".toList) := by
  have apart : appImport.Apart " render();\nlet a;".toList := by
    refine ⟨by decide, ?_⟩
    rintro ⟨back, nonempty, ends, gap, q, -, -, begins⟩
    -- no end of the specifier begins with the first letter of the keyword
    obtain ⟨c, back, rfl⟩ := List.exists_cons_of_ne_nil nonempty
    obtain rfl : 'i' = c := (List.cons_prefix_cons.mp begins).1
    exact absurd (ends.subset List.mem_cons_self) (by decide)
  have outside : ¬StandsOutside " render();\nlet a;".toList := by simp [StandsOutside]
  exact ⟨apart, outside, by decide +kernel, neutralizeImports_statement appImport _ apart⟩

end Workbench.Script
