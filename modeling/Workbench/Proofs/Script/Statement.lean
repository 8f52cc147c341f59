import Workbench.Proofs.Script.Fronts
import Workbench.Proofs.Text.Trim

/-!
# Imports on lines of their own

An import is written with single spaces between its parts. A rule keeps it if it does not look for
its specifier, and rewrites it if it reads what comes before the specifier too. What a rule looks
for may go on behind the end of a line, but not from a comment into the next line, since that begins
with the keyword or is a comment.
-/
namespace Workbench.Script

open Pattern

/-- Imports, and the comments that are made of them, begin so. -/
def Opens (c : Char) : Prop := c = 'i' ∨ c = '/'

theorem Opens.not_blank {c : Char} (opens : Opens c) : Text.isBlank c = false := by
  rcases opens with rfl | rfl <;> decide

theorem Opens.not_quote {c : Char} (opens : Opens c) : ¬IsQuote c := by
  rcases opens with rfl | rfl <;> decide

/-! ### Comments -/

/-- Whether the keyword stands nowhere in a line, or is but the beginning of a longer word. -/
def isKeyless (line : List Char) : Bool :=
  line.tails.all fun back =>
    back.head? != some 'i' || back[6]?.map Text.isBlank == some false

theorem failsAt_of_isKeyless {rule : RewriteRule} {front core : Pattern} {line back : List Char}
    (isRule : IsImportRule rule front core) (keyless : isKeyless line = true) (ends : back <:+ line)
    (nonempty : back ≠ []) (before tail : List Char) :
    rule.pattern.FailsAt ⟨before, back ++ tail⟩ := by
  refine isRule.failsAt_of_ne fun c more blank same => ?_
  have checked := List.all_eq_true.mp keyless back ((List.mem_tails back line).mpr ends)
  rw [Bool.or_eq_true, bne_iff_ne, beq_iff_eq, Option.map_eq_some_iff] at checked
  rcases checked with other | ⟨a, place, solid⟩
  · refine other ?_
    obtain ⟨b, rest, rfl⟩ := List.exists_cons_of_ne_nil nonempty
    simpa using congrArg List.head? same
  · have here := congrArg (·[6]?) same
    simp only [List.getElem?_append_left (List.getElem?_eq_some_iff.mp place).1, place] at here
    obtain rfl : a = c := by simpa using here
    rw [blank] at solid
    cases solid

theorem turnsLine_of_isKeyless {begins : Char → Prop} {line : List Char}
    (keyless : isKeyless line = true) :
    ∀ rule ∈ importRules, rule.TurnsLine begins line line := by
  intro rule listed
  obtain ⟨_, _, isRule⟩ := isImportRule_of_mem listed
  exact .of_quiet fun back ends nonempty tail _ before =>
    failsAt_of_isKeyless isRule keyless ends nonempty before tail

/-- Before a quote there is no keyword with blanks behind it, if no quote stands in the line. -/
theorem ne_keyword_of_follows {back tail gap : List Char} {q : Char} (plain : IsUnquoted back)
    (follows : Follows Opens tail) (isGap : IsGap gap) (mark : IsQuote q) (more : List Char) :
    back ++ tail ≠ "import".toList ++ (gap ++ q :: more) := by
  intro same
  rw [← List.append_assoc] at same
  have newline : ¬IsQuote '\n' := by decide
  rcases List.append_eq_append_iff.mp same with ⟨between, word, behind⟩ | ⟨between, rfl, behind⟩
  · -- the line ends before the quote, so that the next line would begin with a blank or the quote
    rcases follows with rfl | ⟨rest, rfl, opens⟩
    · simp at behind
    · rcases between with _ | ⟨_, _ | ⟨c, between⟩⟩
      · cases behind
        exact newline mark
      · cases behind
        exact (opens q rfl).not_quote mark
      · cases behind
        have blank : Text.isBlank c = true := by
          refine isGap.2 c ?_
          rcases List.append_eq_append_iff.mp word with ⟨_, -, rest⟩ | ⟨_, word, rest⟩
          · simp [rest]
          · rcases List.cons_eq_append_iff.mp rest with ⟨rfl, here⟩ | ⟨_, rfl, -⟩
            · simp [here]
            · have inside : '\n' ∈ "import".toList := word ▸ by simp
              exact absurd inside (by decide)
        simp [(opens c rfl).not_blank] at blank
  · rcases List.cons_eq_append_iff.mp behind with ⟨rfl, here⟩ | ⟨_, rfl, -⟩
    · rcases follows with rfl | ⟨rest, rfl, -⟩
      · cases here
      · cases here
        exact newline mark
    · exact plain q (by simp) mark

/-- A comment without quotes is kept by the rule for imports that name nothing. -/
theorem turnsLine_effect_of_plain {line : List Char} (plain : IsUnquoted line) :
    effectRule.TurnsLine Opens line line := by
  refine .of_quiet fun back ends _ tail follows before => ?_
  exact failsAt_effect_of_ne fun gap q more isGap mark =>
    ne_keyword_of_follows (plain.of_subset ends.subset) follows isGap mark more

/-! ### Lines -/

inductive Quote where
  | single
  | double

def Quote.mark : Quote → Char
  | single => '\''
  | double => '"'

theorem Quote.isQuote (q : Quote) : IsQuote q.mark := by
  cases q <;> decide

/-- What stands between the keywords, on one line. -/
structure IsClause (clause : String) : Prop where
  nonempty : clause ≠ ""
  trimmed : Text.trim clause = clause
  plain : ∀ c ∈ clause.toList, isPlain c = true
  closed : IsClosed clause.toList

theorem IsClause.unquoted {clause : String} (isClause : IsClause clause) :
    IsUnquoted clause.toList := by
  intro a listed mark
  have allowed := isClause.plain a listed
  rcases mark with rfl | rfl <;> simp [isPlain, CharClass.has] at allowed

instance : DecidablePred IsClause := fun clause =>
  decidable_of_iff (clause ≠ "" ∧ Text.trim clause = clause ∧ clause.toList.all isPlain = true ∧
    IsClosed clause.toList)
    ⟨fun ⟨nonempty, trimmed, plain, closed⟩ =>
        ⟨nonempty, trimmed, List.all_eq_true.mp plain, closed⟩,
      fun isClause => ⟨isClause.nonempty, isClause.trimmed, List.all_eq_true.mpr isClause.plain,
        isClause.closed⟩⟩

structure IsSpecifier (specifier : String) : Prop where
  plain : IsUnquoted specifier.toList
  solid : ∀ c ∈ specifier.toList, Text.isBlank c = false

instance : DecidablePred IsSpecifier := fun specifier =>
  decidable_of_iff (IsUnquoted specifier.toList ∧
    (specifier.toList.all fun c => !Text.isBlank c) = true)
    ⟨fun ⟨plain, solid⟩ => ⟨plain, by simpa using solid⟩,
      fun isSpecifier => ⟨isSpecifier.plain, by simpa using isSpecifier.solid⟩⟩

/-- What comes before the specifier. -/
def headOf : Option String → String
  | some clause => "import " ++ clause ++ " from "
  | none => "import "

/-- An import on a line of its own. One that is there for its effect names nothing. -/
structure Import where
  clause : Option String
  quote : Quote
  specifier : String
  /-- Whether there is a semicolon at the end. -/
  closed : Bool
  isClause : ∀ c ∈ clause, IsClause c
  isSpecifier : IsSpecifier specifier

namespace Import

def stop (i : Import) : String := if i.closed then ";" else ""

def text (i : Import) : String :=
  headOf i.clause ++ String.singleton i.quote.mark ++ i.specifier ++
    String.singleton i.quote.mark ++ i.stop

theorem head_plain (i : Import) : IsUnquoted (headOf i.clause).toList := by
  cases clause : i.clause with
  | none => decide
  | some c =>
    have plain := (i.isClause c clause).unquoted
    rw [headOf, String.toList_append, String.toList_append]
    exact .append (.append (by decide) plain) (by decide)

theorem head_closed (i : Import) : IsClosed (headOf i.clause).toList := by
  cases clause : i.clause with
  | none => exact .of_notMem (by decide)
  | some c =>
    have closed := (i.isClause c clause).closed
    rw [headOf, String.toList_append, String.toList_append]
    exact .append (.append (.of_notMem (by decide)) closed) (.of_notMem (by decide))

def line (i : Import) : QuotedLine where
  head := (headOf i.clause).toList
  mark := i.quote.mark
  specifier := i.specifier.toList
  stop := i.stop.toList
  head_closed := i.head_closed
  head_plain := i.head_plain
  isQuote := i.quote.isQuote
  specifier_plain := i.isSpecifier.plain
  specifier_solid := i.isSpecifier.solid
  stops := by
    unfold stop
    cases i.closed <;> simp

theorem toList_text (i : Import) : i.text.toList = i.line.text := by
  simp [text, line, QuotedLine.text]

theorem begun (i : Import) : ∃ c ∈ i.text.toList.head?, Opens c := by
  refine ⟨'i', ?_, .inl rfl⟩
  unfold text
  cases i.clause <;> simp [headOf]

end Import

/-- The specifier of a file of the project, seen from the file that imports it. -/
def IsRelative (specifier : String) : Prop :=
  ∃ rest, rest ≠ "" ∧ (specifier = "./" ++ rest ∨ specifier = "../" ++ rest)

theorem not_isRelative_of_head {specifier : String} (head : specifier.toList.head? ≠ some '.') :
    ¬IsRelative specifier := by
  rintro ⟨rest, -, rfl | rfl⟩ <;> simp at head

theorem IsRelative.notMem {specifier : String} (isRelative : IsRelative specifier)
    {packages : List String} (heads : ∀ s ∈ packages, s.toList.head? ≠ some '.') :
    specifier ∉ packages :=
  fun listed => not_isRelative_of_head (heads specifier listed) isRelative

/-- A relative specifier is one that the rules for the project's own files read. -/
theorem isRelative_iff {specifier : String} (plain : IsUnquoted specifier.toList) :
    IsRelative specifier ↔ relativeSpecifier.Reads specifier.toList [] := by
  rw [reads_relativeSpecifier_iff]
  constructor
  · rintro ⟨rest, nonempty, written⟩
    have written' : specifier.toList = "./".toList ++ rest.toList ∨
        specifier.toList = "../".toList ++ rest.toList := by
      simpa only [← String.toList_append, String.toList_inj] using written
    refine ⟨rfl, rest.toList, by simpa using nonempty, plain.of_subset ?_, written'⟩
    rcases written' with same | same <;> exact same ▸ List.subset_append_right _ _
  · rintro ⟨-, rest, nonempty, -, written⟩
    refine ⟨String.ofList rest, by simpa using nonempty, ?_⟩
    rcases written with same | same
    · exact .inl (String.toList_injective (by simpa using same))
    · exact .inr (String.toList_injective (by simpa using same))

namespace Import

variable (i : Import)

/-- A rule keeps an import whose specifier it does not look for. -/
theorem keeps {rule : RewriteRule} {front core : Pattern} (isRule : IsImportRule rule front core)
    (apart : ∀ groups, ¬core.Reads i.specifier.toList groups) :
    rule.TurnsLine Opens i.text.toList i.text.toList := by
  rw [toList_text]
  exact isRule.turnsLine_of_apart i.line fun _ _ _ groups _ => apart groups

/-- The two rules for the view library keep the import of anything else. -/
theorem keeps_react (other : i.specifier ≠ "react") :
    ∀ rule ∈ [reactRule, namedRule], rule.TurnsLine Opens i.text.toList i.text.toList := by
  have apart := not_reads_react (mt String.toList_inj.mp other)
  exact List.forall_mem_cons.mpr ⟨i.keeps isImportRule_react apart,
    List.forall_mem_singleton.mpr (i.keeps isImportRule_named apart)⟩

theorem keeps_packages (package : i.specifier ∉ ["react", "react-dom", "react-dom/client"]) :
    ∀ rule ∈ [reactRule, namedRule] ++ [domRule],
      rule.TurnsLine Opens i.text.toList i.text.toList := by
  simp only [List.mem_cons, List.not_mem_nil, or_false, not_or] at package
  obtain ⟨react, dom, client⟩ := package
  have kept : domRule.TurnsLine Opens i.text.toList i.text.toList :=
    i.keeps isImportRule_dom (not_reads_domPackage (mt String.toList_inj.mp dom)
      (mt String.toList_inj.mp client))
  exact List.forall_mem_append.mpr ⟨i.keeps_react react, List.forall_mem_singleton.mpr kept⟩

/-- The rules for the project's own files keep the import of anything else. -/
theorem keeps_files (outside : ¬IsRelative i.specifier) :
    ∀ rule ∈ [relativeRule, effectRule], rule.TurnsLine Opens i.text.toList i.text.toList := by
  have apart (number : Nat) (groups : List (Nat × List Char)) :
      ¬(Pattern.capture number relativeSpecifier).Reads i.specifier.toList groups := by
    rw [isRelative_iff i.isSpecifier.plain] at outside
    rw [reads_capture_iff]
    rintro ⟨inner, reads, -⟩
    obtain rfl := ((reads_relativeSpecifier_iff _ _).mp reads).1
    exact outside reads
  exact List.forall_mem_cons.mpr ⟨i.keeps isImportRule_relative (apart 2),
    List.forall_mem_singleton.mpr (i.keeps isImportRule_effect (apart 1))⟩

theorem turns {rule : RewriteRule} {front core : Pattern} {out : List Char}
    (isRule : IsImportRule rule front core)
    (opening : ∃ before, front.Reads (headOf i.clause).toList before)
    (closing : ∃ behind, core.Reads i.specifier.toList behind)
    (filled : ∀ before behind, front.Reads (headOf i.clause).toList before →
      core.Reads i.specifier.toList behind → fillFrom (behind ++ before) rule.replacement = out) :
    rule.TurnsLine Opens i.text.toList out := by
  rw [toList_text]
  exact isRule.turnsLine_of_reads i.line opening closing filled

end Import

/-! ### Fronts of lines -/

/-- Names with no braces of their own. -/
def IsFlat (names : String) : Prop := '\x7b' ∉ names.toList ∧ '\x7d' ∉ names.toList

instance : DecidablePred IsFlat := fun names =>
  inferInstanceAs (Decidable ('\x7b' ∉ names.toList ∧ '\x7d' ∉ names.toList))

theorem reads_react_alone : reactFront.Reads (headOf (some "React")).toList [] :=
  (reads_reactFront_iff _ _).mpr ⟨[' '], [], [' '], [' '], isGap_single, isGap_single, isGap_single,
    .inr ⟨rfl, rfl⟩, rfl⟩

theorem exists_reads_react {names : String} (flat : IsFlat names) : ∃ groups,
    reactFront.Reads (headOf (some ("React, \x7b" ++ names ++ "\x7d"))).toList groups := by
  have isNames : IsNames (", \x7b" ++ names ++ "\x7d").toList :=
    ⟨[' '], '\x7b' :: (names.toList ++ ['\x7d']), isGap_single.2, ⟨_, flat.2, rfl⟩, by simp⟩
  exact ⟨_, (reads_reactFront_iff _ _).mpr ⟨[' '], _, [' '], [' '], isGap_single, isGap_single,
    isGap_single, .inl ⟨isNames, rfl⟩, by simp [headOf]⟩⟩

theorem reads_named {names : String} (flat : IsFlat names) :
    namedFront.Reads (headOf (some ("\x7b" ++ names ++ "\x7d"))).toList [] :=
  (reads_namedFront_iff _ _).mpr ⟨rfl, [' '], _, [' '], [' '], isGap_single, ⟨_, flat.2, rfl⟩,
    isGap_single, isGap_single, by simp [headOf]⟩

theorem reads_dom : domFront.Reads (headOf (some "ReactDOM")).toList [] :=
  (reads_domFront_iff _ _).mpr ⟨rfl, [' '], [' '], [' '], isGap_single, isGap_single, isGap_single,
    rfl⟩

/-- The default import is not read where only names are imported. -/
theorem not_reads_react_of_flat {names : String} (flat : IsFlat names) {back : List Char}
    (ends : back <:+ (headOf (some ("\x7b" ++ names ++ "\x7d"))).toList)
    (groups : List (Nat × List Char)) : ¬reactFront.Reads back groups := by
  refine not_reads_react_of_named (reads_named flat) ?_ ends
  simp [headOf, List.count_append, List.count_eq_zero.mpr flat.1]

theorem exists_reads_clause {clause : String} (isClause : IsClause clause) :
    ∃ groups, clauseFront.Reads (headOf (some clause)).toList groups :=
  ⟨_, (reads_clauseFront_iff _ _).mpr ⟨[' '], clause.toList, [' '], [' '], isGap_single,
    isGap_single, isGap_single, by simpa using isClause.nonempty, isClause.plain, rfl,
    by simp [headOf]⟩⟩

/-- The clause is what is remembered, since it neither begins nor ends with a blank. -/
theorem groups_of_reads_clause {clause : String} (isClause : IsClause clause)
    {groups : List (Nat × List Char)}
    (reads : clauseFront.Reads (headOf (some clause)).toList groups) :
    groups = [(1, clause.toList)] := by
  obtain ⟨gap, names, gap', gap'', isGap, isGap', isGap'', -, -, rfl, same⟩ :=
    (reads_clauseFront_iff _ _).mp reads
  obtain ⟨a, rest, first, solid⟩ := Text.exists_first_of_trim isClause.trimmed isClause.nonempty
  obtain ⟨front, z, last, solid'⟩ := Text.exists_last_of_trim isClause.trimmed isClause.nonempty
  have cut : "import".toList ++ (gap ++ (names ++ (gap' ++ ("from".toList ++ gap'')))) =
      "import".toList ++ ' ' :: a :: (rest ++ " from ".toList) := by
    rw [← same]
    simp [headOf, first]
  have behind := isGap.eq_of_cons solid (List.append_cancel_left cut)
  have ends : names ++ gap' ++ "from".toList ++ gap'' =
      clause.toList ++ " fro".toList ++ ['m', ' '] := by simpa [first] using behind
  have words := isGap''.eq_of_concat (by decide) ends
  have before : names ++ gap' = front ++ [z, ' '] := by
    have same : names ++ gap' ++ "from".toList = front ++ [z, ' '] ++ "from".toList := by
      simpa [last] using words
    exact List.append_cancel_right same
  rw [isGap'.eq_of_concat solid' before, ← last]

theorem reads_effect : effectFront.Reads (headOf none).toList [] :=
  (reads_effectFront_iff _ _).mpr ⟨rfl, [' '], isGap_single, rfl⟩

theorem not_reads_clause_of_effect {back : List Char} (ends : back <:+ (headOf none).toList)
    (groups : List (Nat × List Char)) : ¬clauseFront.Reads back groups :=
  not_reads_clause_of_reads_effect reads_effect ends

end Workbench.Script
