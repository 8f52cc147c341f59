import Workbench.Proofs.Script.Comments
import Workbench.Proofs.Script.Names
import Workbench.Proofs.Script.Statement
import Workbench.Proofs.Text.Split

/-!
# Imports of project files in any layout

An import may be written with any white space between its tokens. Whether it becomes a comment is
told by its layout alone: the rule asks for blanks around the clause and around the second keyword,
and does not read a clause that goes on in the next line.
-/
namespace Workbench.Script

open Pattern

/-- What an import of a file names: its default export, all of it, or some of its exports. -/
inductive Clause where
  | default (name : Identifier)
  | whole (left right : Gap) (name : Identifier)
  | braced (names : List (Gap × Identifier × Gap)) (comma : Bool) (last : Gap)

namespace Clause

def text : Clause → String
  | default name => name.text
  | whole left right name => "*" ++ left.text ++ "as" ++ right.text ++ name.text
  | braced names comma last =>
    "\x7b" ++ listing names ++ (if comma then "," else "") ++ last.text ++ "\x7d"

/-- A clause is made of white space, of names and of a few marks. -/
theorem mem_text {clause : Clause} {c : Char} (listed : c ∈ clause.text.toList) :
    Text.isBlank c = true ∨ isNameChar c = true ∨ c ∈ ['*', ',', '\x7b', '\x7d'] := by
  cases clause with
  | default name => exact .inr (.inl (name.plain c listed))
  | whole left right name =>
    simp only [text, String.toList_append, List.mem_append] at listed
    rcases listed with (((star | blank) | word) | blank) | letter
    · exact .inr (.inr (by simp_all))
    · exact .inl (left.blank c blank)
    · have letters : ∀ c ∈ "as".toList, isNameChar c = true := by decide
      exact .inr (.inl (letters c word))
    · exact .inl (right.blank c blank)
    · exact .inr (.inl (name.plain c letter))
  | braced names comma last =>
    simp only [text, String.toList_append, List.mem_append] at listed
    rcases listed with (((brace | entry) | mark) | blank) | brace
    · exact .inr (.inr (by simp_all))
    · rcases mem_listing entry with rfl | blank | letter
      · exact .inr (.inr (by simp))
      · exact .inl blank
      · exact .inr (.inl letter)
    · exact .inr (.inr (by cases comma <;> simp_all))
    · exact .inl (last.blank c blank)
    · exact .inr (.inr (by simp_all))

theorem isPlain_of_mem {clause : Clause} {c : Char} (listed : c ∈ clause.text.toList)
    (inside : c ≠ '\n') : isPlain c = true := by
  have allowed : c ∉ ['\'', '"', ';'] := by
    intro mark
    rcases mem_text listed with blank | letter | other
    · have solid : ∀ c ∈ ['\'', '"', ';'], Text.isBlank c = false := by decide
      simp [solid c mark] at blank
    · have others : ∀ c ∈ ['\'', '"', ';'], isNameChar c = false := by decide
      simp [others c mark] at letter
    · have others : ∀ c ∈ ['\'', '"', ';'], c ∉ ['*', ',', '\x7b', '\x7d'] := by decide
      exact others c mark other
  simpa [isPlain, CharClass.has, inside] using allowed

theorem unquoted (clause : Clause) : IsUnquoted clause.text.toList := by
  intro c listed mark
  have plain := isPlain_of_mem listed (by rintro rfl; exact absurd mark (by decide))
  rcases mark with rfl | rfl <;> exact absurd plain (by decide)

theorem closed (clause : Clause) : IsClosed clause.text.toList := by
  cases clause with
  | default name => exact .of_notMem (name.notMem (by decide))
  | whole left right name =>
    refine .of_notMem fun listed => ?_
    simp only [text, String.toList_append, List.mem_append] at listed
    rcases listed with (((star | blank) | word) | blank) | letter
    · exact absurd star (by decide)
    · exact absurd (left.blank _ blank) (by decide)
    · exact absurd word (by decide)
    · exact absurd (right.blank _ blank) (by decide)
    · exact name.notMem (by decide) letter
  | braced names comma last =>
    -- the one brace that opens is closed by the last character
    rw [text, String.toList_append]
    exact .of_last _

theorem exists_first (clause : Clause) : ∃ a rest, clause.text.toList = a :: rest ∧
    Text.isBlank a = false := by
  cases clause with
  | default name =>
    obtain ⟨a, rest, chars, letter⟩ := name.exists_first
    exact ⟨a, rest, chars, ((isNameChar_iff a).mp letter).1⟩
  | whole left right name =>
    exact ⟨'*', _, by simp only [text, String.toList_append, List.append_assoc]; rfl, by decide⟩
  | braced names comma last =>
    exact ⟨'\x7b', _, by simp only [text, String.toList_append, List.append_assoc]; rfl, by decide⟩

theorem exists_last (clause : Clause) : ∃ front z, clause.text.toList = front ++ [z] ∧
    Text.isBlank z = false := by
  have named (name : Identifier) (before : List Char) : ∃ front z,
      before ++ name.text.toList = front ++ [z] ∧ Text.isBlank z = false := by
    rcases List.eq_nil_or_concat' name.text.toList with empty | ⟨front, z, chars⟩
    · exact absurd empty (by simp [name.nonempty])
    · exact ⟨before ++ front, z, by simp [chars], name.solid z (by simp [chars])⟩
  cases clause with
  | default name => exact named name []
  | whole left right name =>
    obtain ⟨front, z, chars, solid⟩ := named name ("*" ++ left.text ++ "as" ++ right.text).toList
    exact ⟨front, z, by rw [text, String.toList_append, chars], solid⟩
  | braced names comma last => exact ⟨_, '\x7d', String.toList_append, by decide⟩

end Clause

/-- Blanks are read in front of a clause and behind it, and the rest of what stands there. -/
theorem blanks_around {opening clause before gap names gap' : List Char}
    (first : ∃ a rest, clause = a :: rest ∧ Text.isBlank a = false)
    (last : ∃ front z, clause = front ++ [z] ∧ Text.isBlank z = false)
    (isGap : IsGap gap) (isGap' : IsGap gap')
    (same : opening ++ (clause ++ before) = gap ++ (names ++ gap')) :
    opening ≠ [] ∧ before ≠ [] ∧ ∀ c ∈ clause, c ∈ names := by
  obtain ⟨a, rest, head, solid⟩ := first
  obtain ⟨front, z, back, solid'⟩ := last
  -- no character that is not blank is one of a gap
  have outside {gap : List Char} (isGap : IsGap gap) {c : Char} (solid : Text.isBlank c = false) :
      c ∉ gap := fun listed => by simp [isGap.2 c listed] at solid
  -- a gap that went on into the clause would hold the first character of it
  have cut : ∃ left, opening = gap ++ left := by
    rcases List.append_eq_append_iff.mp same with ⟨more, here, behind⟩ | ⟨more, here, -⟩
    · rcases more with _ | ⟨c, more⟩
      · exact ⟨[], by simpa using here.symm⟩
      · rw [head] at behind
        have stray : a ∈ gap := by rw [here, (List.cons.inj behind).1]; simp
        exact absurd stray (outside isGap solid)
    · exact ⟨more, here⟩
  obtain ⟨left, rfl⟩ := cut
  rw [List.append_assoc, List.append_cancel_left_eq] at same
  -- and from behind, the last one
  have cut : ∃ right, before = right ++ gap' := by
    rw [← List.append_assoc] at same
    rcases List.append_eq_append_iff.mp same with ⟨more, -, here⟩ | ⟨more, behind, here⟩
    · exact ⟨more, here⟩
    · rcases List.eq_nil_or_concat' more with rfl | ⟨init, c, rfl⟩
      · exact ⟨[], by simpa using here.symm⟩
      · rw [back, ← List.append_assoc, ← List.append_assoc] at behind
        have stray : z ∈ gap' := by
          rw [here, List.singleton_inj.mp (List.append_inj' behind rfl).2]
          simp
        exact absurd stray (outside isGap' solid')
  obtain ⟨right, rfl⟩ := cut
  rw [← List.append_assoc, ← List.append_assoc, List.append_cancel_right_eq] at same
  exact ⟨by simp [isGap.1], by simp [isGap'.1], fun c listed => by rw [← same]; simp [listed]⟩

/-- The rule for imports that name nothing does not fit where a quote does not come next behind the
blanks. -/
theorem failsAt_effect {gap : List Char} {d : Char} (blank : ∀ c ∈ gap, Text.isBlank c = true)
    (solid : Text.isBlank d = false) (unquoted : ¬IsQuote d) (before out : List Char) :
    effectRule.pattern.FailsAt ⟨before, "import".toList ++ (gap ++ d :: out)⟩ := by
  refine failsAt_effect_of_ne fun gap' q more isGap mark same => ?_
  have quote := (spans_unique blank isGap.2 (by simpa using solid)
    (by simpa using mark.not_blank) (List.append_cancel_left same)).2
  exact unquoted ((List.cons.inj quote).1 ▸ mark)

/-- An import of a file of the project. -/
structure RelativeImport where
  opening : Gap
  clause : Clause
  before : Gap
  behind : Gap
  quote : Quote
  specifier : String
  /-- The white space in front of the semicolon, if there is one. -/
  ending : Option Gap
  isRelative : IsRelative specifier
  unquoted : IsUnquoted specifier.toList
  oneLine : '\n' ∉ specifier.toList

namespace RelativeImport

variable (i : RelativeImport)

/-- What comes before the specifier. -/
def head : String :=
  "import" ++ i.opening.text ++ i.clause.text ++ i.before.text ++ "from" ++ i.behind.text

def stop : String :=
  match i.ending with
  | none => ""
  | some gap => gap.text ++ ";"

def text : String :=
  i.head ++ String.singleton i.quote.mark ++ i.specifier ++ String.singleton i.quote.mark ++ i.stop

/-- There are blanks around the clause and around the keyword behind it, and no line ends within the
clause or in front of the semicolon. -/
structure IsLaidOut : Prop where
  opening : i.opening.text ≠ ""
  before : i.before.text ≠ ""
  behind : i.behind.text ≠ ""
  clause : '\n' ∉ i.clause.text.toList
  ending : ∀ gap ∈ i.ending, '\n' ∉ gap.text.toList

theorem head_unquoted : IsUnquoted i.head.toList := by
  have word : IsUnquoted "import".toList := by decide
  have word' : IsUnquoted "from".toList := by decide
  simp only [head, String.toList_append]
  exact ((((word.append (.of_blank i.opening.blank)).append i.clause.unquoted).append
    (.of_blank i.before.blank)).append word').append (.of_blank i.behind.blank)

theorem head_closed : IsClosed i.head.toList := by
  have blank (gap : Gap) : IsClosed gap.text.toList :=
    .of_notMem fun listed => absurd (gap.blank _ listed) (by decide)
  have word : IsClosed "import".toList := .of_notMem (by decide)
  have word' : IsClosed "from".toList := .of_notMem (by decide)
  simp only [head, String.toList_append]
  exact ((((word.append (blank i.opening)).append i.clause.closed).append
    (blank i.before)).append word').append (blank i.behind)

def quotation : Quotation where
  head := i.head.toList
  mark := i.quote.mark
  specifier := i.specifier.toList
  mark' := i.quote.mark
  head_closed := i.head_closed
  head_plain := i.head_unquoted
  isQuote := i.quote.isQuote
  specifier_plain := i.unquoted
  isQuote' := i.quote.isQuote

theorem toList_text : i.text.toList = i.quotation.text ++ i.stop.toList := by
  simp [text, quotation, Quotation.text]

theorem stop_unquoted : IsUnquoted i.stop.toList := by
  unfold stop
  split
  · decide
  · rw [String.toList_append]
    exact .append (.of_blank (Gap.blank _)) (by decide)

/-! ### What is read of the front -/

/-- The rule reads the front exactly if there are blanks where it asks for them and the clause
stands on one line. -/
theorem exists_reads_iff : (∃ groups, clauseFront.Reads i.head.toList groups) ↔
    i.opening.text ≠ "" ∧ i.before.text ≠ "" ∧ i.behind.text ≠ "" ∧
      '\n' ∉ i.clause.text.toList := by
  have isGap (gap : Gap) (nonempty : gap.text ≠ "") : IsGap gap.text.toList :=
    ⟨by simpa using nonempty, gap.blank⟩
  constructor
  · rintro ⟨groups, reads⟩
    obtain ⟨gap, names, gap', gap'', opens, closes, ends, -, plain, -, same⟩ :=
      (reads_clauseFront_iff _ _).mp reads
    have solid (xs : List Char) :
        ∀ c ∈ (xs ++ "from".toList).getLast?, Text.isBlank c = false := by
      simp [List.getLast?_append]
      decide
    have whole : "import".toList ++ (i.opening.text.toList ++ (i.clause.text.toList ++
        i.before.text.toList)) ++ "from".toList ++ i.behind.text.toList =
        "import".toList ++ (gap ++ (names ++ gap')) ++ "from".toList ++ gap'' := by
      simpa [head] using same
    -- from behind, the blanks and the second keyword are the same in both
    obtain ⟨words, rfl⟩ := spans_unique_right i.behind.blank ends.2 (solid _) (solid _) whole
    have inside := List.append_cancel_left (List.append_cancel_right words)
    obtain ⟨opening, before, within⟩ :=
      blanks_around i.clause.exists_first i.clause.exists_last opens closes inside
    refine ⟨by simpa using opening, by simpa using before, by simpa using ends.1, fun listed => ?_⟩
    exact absurd (plain _ (within _ listed)) (by decide)
  · rintro ⟨opening, before, behind, oneLine⟩
    obtain ⟨a, rest, chars, -⟩ := i.clause.exists_first
    refine ⟨_, (reads_clauseFront_iff _ _).mpr ⟨_, i.clause.text.toList, _, _, isGap _ opening,
      isGap _ before, isGap _ behind, by simp [chars], fun c listed => ?_, rfl, by simp [head]⟩⟩
    exact Clause.isPlain_of_mem listed (by rintro rfl; exact oneLine listed)

/-! ### What becomes of an import -/

/-- From within the specifier on, no rule finds two quotes. -/
theorem few_quotes {back : List Char}
    (ends : back <:+ i.quotation.specifier ++ [i.quotation.mark']) :
    (back ++ i.stop.toList).countP (IsQuote ·) < 2 := by
  have inside := ends.sublist.countP_le (p := fun c => decide (IsQuote c))
  have plain : i.quotation.specifier.countP (IsQuote ·) = 0 := i.quotation.specifier_plain.countP
  have behind := i.stop_unquoted.countP
  have one := i.quotation.isQuote'
  simp [plain, one] at inside
  rw [List.countP_append, behind]
  omega

/-- A rule that does not look for the specifier keeps the import. -/
theorem apply_of_apart {rule : RewriteRule} {front core : Pattern}
    (isRule : IsImportRule rule front core)
    (apart : ∀ groups, ¬core.Reads i.specifier.toList groups) :
    rule.apply i.text.toList = i.text.toList := by
  have keeps := isRule.keeps_of_apart i.quotation i.stop.toList
    (fun _ _ _ behind _ => apart behind)
    fun back ends _ before => isRule.failsAt_of_few (i.few_quotes ends)
  have few : i.stop.toList.countP (IsQuote ·) < 2 := by rw [i.stop_unquoted.countP]; omega
  rw [RewriteRule.apply, toList_text, keeps, isRule.applyFrom_of_few few]

theorem apply_packages :
    domRule.apply (namedRule.apply (reactRule.apply i.text.toList)) = i.text.toList := by
  have isFile : i.specifier.toList.head? = some '.' :=
    by_contra fun other => not_isRelative_of_head other i.isRelative
  have apart := not_reads_packages isFile
  rw [i.apply_of_apart isImportRule_react fun groups => (apart groups).1,
    i.apply_of_apart isImportRule_named fun groups => (apart groups).1,
    i.apply_of_apart isImportRule_dom fun groups => (apart groups).2]

theorem toList_neutralizeImports : (neutralizeImports i.text).toList =
    effectRule.apply (relativeRule.apply i.text.toList) := by
  simp only [neutralizeImports, String.toList_ofList, importRules_eq, applyAll, List.foldl_cons,
    List.foldl_nil, apply_packages]

/-- The semicolon is taken with the import if nothing stands in front of it. -/
theorem exists_stop : ∃ taken left, i.stop.toList = taken ++ left ∧
    (taken = [';'] ∨ taken = [] ∧ left.head? ≠ some ';') ∧
    ((∃ gap ∈ i.ending, '\n' ∈ gap.text.toList ∧ left = gap.text.toList ++ [';']) ∨
      (∀ gap ∈ i.ending, '\n' ∉ gap.text.toList) ∧ '\n' ∉ left) := by
  unfold stop
  cases i.ending with
  | none => exact ⟨[], [], rfl, .inr ⟨rfl, by simp⟩, .inr ⟨by simp, by simp⟩⟩
  | some gap =>
    cases chars : gap.text.toList with
    | nil => exact ⟨[';'], [], by simp [chars], .inl rfl, .inr ⟨by simp [chars], by simp⟩⟩
    | cons c rest =>
      have blank := gap.blank c (by simp [chars])
      have other : c ≠ ';' := by rintro rfl; exact absurd blank (by decide)
      refine ⟨[], c :: rest ++ [';'], by simp [chars], .inr ⟨rfl, by simp [other]⟩, ?_⟩
      by_cases breaks : '\n' ∈ c :: rest
      · exact .inl ⟨gap, rfl, by rwa [chars], by rw [chars]⟩
      · exact .inr ⟨by simpa [chars] using breaks, by simpa using breaks⟩

/-- An import whose front is read becomes a comment, and what may be left of its end stands behind
the comment. -/
theorem neutralized_of_reads (reads : ∃ groups, clauseFront.Reads i.head.toList groups) :
    ∃ comment left, (neutralizeImports i.text).toList = "// import ".toList ++ comment ++ left ∧
      '\n' ∉ comment ∧ ((∃ gap ∈ i.ending, '\n' ∈ gap.text.toList ∧
          left = gap.text.toList ++ [';']) ∨
        (∀ gap ∈ i.ending, '\n' ∉ gap.text.toList) ∧ '\n' ∉ left) := by
  obtain ⟨taken, left, stop, stops, ends⟩ := i.exists_stop
  have closing := (isRelative_iff i.unquoted).mp i.isRelative
  obtain ⟨_, _, opening, captured, rewritten⟩ :=
    isImportRule_relative.applyFrom_of_reads i.quotation reads ⟨_, .capture 2 closing⟩ stops []
  obtain ⟨_, clause, _, _, -, -, -, -, plain, rfl, -⟩ := (reads_clauseFront_iff _ _).mp opening
  obtain rfl := (reads_capture_relativeSpecifier captured).1
  -- the comment and what is left have no quotes, so that no rule fits again
  have unquoted : IsUnquoted left := i.stop_unquoted.of_subset (by rw [stop]; simp)
  have few : left.countP (IsQuote ·) < 2 := by rw [unquoted.countP]; omega
  have comment : relativeRule.apply i.text.toList = "// import ".toList ++
      (clause ++ " from ".toList ++ i.specifier.toList) ++ left := by
    rw [RewriteRule.apply, toList_text, stop, rewritten, isImportRule_relative.applyFrom_of_few few]
    simp [fillFrom, relativeRule, List.lookup_cons, quotation]
  have unquoted' : IsUnquoted clause := by
    intro c listed mark
    have allowed := plain c listed
    rcases mark with rfl | rfl <;> exact absurd allowed (by decide)
  refine ⟨clause ++ " from ".toList ++ i.specifier.toList, left, ?_, ?_, ends⟩
  · have whole : IsUnquoted ("// import ".toList ++
        (clause ++ " from ".toList ++ i.specifier.toList) ++ left) :=
      .append (.append (by decide) (.append (.append unquoted' (by decide)) i.unquoted)) unquoted
    rw [toList_neutralizeImports, comment, RewriteRule.apply]
    exact isImportRule_effect.applyFrom_of_few (by rw [whole.countP]; omega) []
  · simp only [List.mem_append, not_or]
    exact ⟨⟨fun listed => absurd (plain _ listed) (by decide), by decide⟩, i.oneLine⟩

/-- Where the front is not read, the keyword is kept with the blanks behind it, and then comes what
began the clause or a comment. -/
theorem apply_of_not_reads (unread : ¬∃ groups, clauseFront.Reads i.head.toList groups) :
    ∃ d out, relativeRule.apply i.text.toList =
      "import".toList ++ (i.opening.text.toList ++ d :: out) ∧
        Text.isBlank d = false ∧ ¬IsQuote d := by
  obtain ⟨a, rest, first, solid⟩ := i.clause.exists_first
  have listed : relativeRule ∈ importRules := by simp [importRules_eq]
  -- the clause may be the keyword as a name, and then a comment may come in its place
  have start (before more : List Char) : ∃ d out,
      relativeRule.applyFrom before (a :: more) = d :: out ∧
        Text.isBlank d = false ∧ ¬IsQuote d := by
    rcases applyFrom_cons_cases listed before a more with ⟨out, same⟩ | same
    · exact ⟨'/', out, same, by decide, by decide⟩
    · exact ⟨a, _, same, solid, i.clause.unquoted a (by simp [first])⟩
  have fails : relativeRule.pattern.FailsAt ⟨[], i.text.toList⟩ := by
    have unfit := isImportRule_relative.failsAt_of_apart i.quotation List.suffix_rfl
      (fun before _ reads _ => unread ⟨before, reads⟩) [] i.stop.toList
    rw [toList_text]
    simpa [Quotation.text] using unfit
  have inside : 'i' ∉ "mport".toList ++ i.opening.text.toList := by
    intro letter
    rcases List.mem_append.mp letter with letter | blank
    · exact absurd letter (by decide)
    · exact absurd (i.opening.blank 'i' blank) (by decide)
  obtain ⟨more, text⟩ : ∃ more, i.text.toList =
      'i' :: ("mport".toList ++ i.opening.text.toList ++ a :: more) := by
    refine ⟨rest ++ (i.before.text ++ "from" ++ i.behind.text ++ String.singleton i.quote.mark ++
      i.specifier ++ String.singleton i.quote.mark ++ i.stop).toList, ?_⟩
    simp [RelativeImport.text, head, first]
  have keeps : relativeRule.Keeps ("mport".toList ++ i.opening.text.toList) (a :: more) := by
    -- a fit would begin with the first letter of the keyword
    refine RewriteRule.keeps_of_fails fun back ends nonempty before => ?_
    refine isImportRule_relative.failsAt_of_head fun head => inside (ends.subset ?_)
    obtain ⟨c, back, rfl⟩ := List.exists_cons_of_ne_nil nonempty
    simp_all
  obtain ⟨d, out, behind, solid', unquoted⟩ :=
    start (("mport".toList ++ i.opening.text.toList).reverse ++ ['i']) more
  refine ⟨d, out, ?_, solid', unquoted⟩
  rw [text] at fails
  rw [RewriteRule.apply, text, RewriteRule.applyFrom_of_fails _ _ _ fails, keeps, behind]
  simp

/-- An import whose front is not read still begins with the keyword. -/
theorem head?_of_not_reads (unread : ¬∃ groups, clauseFront.Reads i.head.toList groups) :
    (neutralizeImports i.text).toList.head? = some 'i' := by
  obtain ⟨d, out, kept, solid, unquoted⟩ := i.apply_of_not_reads unread
  have fails := failsAt_effect i.opening.blank solid unquoted [] out
  rw [toList_neutralizeImports, kept, RewriteRule.apply]
  rw [show "import".toList = 'i' :: "mport".toList from rfl, List.cons_append] at fails ⊢
  rw [RewriteRule.applyFrom_of_fails _ _ _ fails, List.head?_cons]

end RelativeImport

/-- Each line of a text that is not blank is a comment. -/
def IsCommented (text : String) : Prop :=
  ∀ line ∈ Text.splitAt '\n' text.toList,
    (∀ c ∈ line, Text.isBlank c = true) ∨ "//".toList <+: line

theorem isCommented_of_oneLine {text : String} (comment : "//".toList <+: text.toList)
    (oneLine : '\n' ∉ text.toList) : IsCommented text := by
  intro line listed
  rw [Text.splitAt_of_notMem '\n' _ oneLine] at listed
  rw [List.mem_singleton.mp listed]
  exact .inr comment

theorem not_isCommented_of_head {text : String} {a : Char}
    (first : text.toList.head? = some a) (solid : Text.isBlank a = false) (other : a ≠ '/') :
    ¬IsCommented text := by
  intro commented
  obtain ⟨line, back, cut, free, ends⟩ := Text.exists_first_cut '\n' text.toList
  have listed : line ∈ Text.splitAt '\n' text.toList :=
    (Text.mem_splitAt_iff '\n' _ _).mpr ⟨free, [], back, by simp [cut], .inl rfl, ends⟩
  obtain ⟨rest, begins⟩ : ∃ rest, line = a :: rest := by
    cases line with
    | nil =>
      rcases ends with rfl | head
      · simp [cut] at first
      · rw [cut, List.nil_append, head] at first
        cases first
        exact absurd solid (by decide)
    | cons c rest =>
      rw [cut] at first
      cases first
      exact ⟨rest, rfl⟩
  rcases commented line listed with blank | comment
  · have isBlank := blank a (by simp [begins])
    simp [solid] at isBlank
  · rw [begins] at comment
    exact other (List.cons_prefix_cons.mp comment).1.symm

/-- A semicolon on a line of its own is not a comment. -/
theorem not_isCommented_of_last {text : String} {front gap : List Char}
    (whole : text.toList = front ++ (gap ++ [';'])) (blank : ∀ c ∈ gap, Text.isBlank c = true)
    (breaks : '\n' ∈ gap) : ¬IsCommented text := by
  intro commented
  obtain ⟨before, last, rfl, free, begins⟩ := Text.exists_last_cut '\n' gap
  have ends : before.getLast? = some '\n' := by
    rcases begins with rfl | ends
    · exact absurd breaks free
    · exact ends
  -- the semicolon stands behind the last line end of the gap
  have listed : last ++ [';'] ∈ Text.splitAt '\n' text.toList := by
    refine (Text.mem_splitAt_iff '\n' _ _).mpr ⟨by simpa using free, front ++ before, [],
      by simp [whole], .inr ?_, .inl rfl⟩
    rw [List.getLast?_append, ends]
    rfl
  rcases commented _ listed with blanks | comment
  · exact absurd (blanks ';' (by simp)) (by decide)
  · have slash : '/' ∈ last ++ [';'] := comment.subset (by decide)
    rcases List.mem_append.mp slash with stray | stray
    · exact absurd (blank '/' (by simp [stray])) (by decide)
    · exact absurd stray (by decide)

/-- An import of a file of the project becomes a comment exactly if it is laid out as the rule asks
for. -/
theorem isCommented_neutralizeImports_iff (i : RelativeImport) :
    IsCommented (neutralizeImports i.text) ↔ i.IsLaidOut := by
  constructor
  · intro commented
    by_cases reads : ∃ groups, clauseFront.Reads i.head.toList groups
    · obtain ⟨comment, left, whole, -, breaks⟩ := i.neutralized_of_reads reads
      obtain ⟨opening, before, behind, clause⟩ := i.exists_reads_iff.mp reads
      refine ⟨opening, before, behind, clause, ?_⟩
      rcases breaks with ⟨gap, -, breaks, rfl⟩ | ⟨oneLine, -⟩
      · exact absurd commented (not_isCommented_of_last whole gap.blank breaks)
      · exact oneLine
    · have live := not_isCommented_of_head (i.head?_of_not_reads reads) (by decide) (by decide)
      exact absurd commented live
  · rintro ⟨opening, before, behind, clause, ending⟩
    have reads := i.exists_reads_iff.mpr ⟨opening, before, behind, clause⟩
    obtain ⟨comment, left, whole, oneLine, breaks⟩ := i.neutralized_of_reads reads
    have free : '\n' ∉ left := by
      rcases breaks with ⟨gap, present, breaks, -⟩ | ⟨-, free⟩
      · exact absurd breaks (ending gap present)
      · exact free
    refine isCommented_of_oneLine ⟨" import ".toList ++ comment ++ left, ?_⟩ ?_
    · simp [whole]
    · rw [whole]
      simp [oneLine, free]

/-- An import of two names, with some white space in front of each and some behind them. -/
def pairImport (first second : Identifier) (between last : Gap) : RelativeImport where
  opening := .single
  clause := .braced [(between, first, .nothing), (between, second, last)] false .nothing
  before := .single
  behind := .single
  quote := .single
  specifier := "./x"
  ending := some .nothing
  isRelative := ⟨"x", by decide, .inl (by decide)⟩
  unquoted := by decide
  oneLine := by decide

/-- With its names on one line an import becomes a comment, and with its names on lines of their own
it is not even changed. -/
theorem pair_commented_on_one_line : ∃ inline spread : RelativeImport,
    inline.text = "import \x7b A, B \x7d from './x';" ∧
    IsCommented (neutralizeImports inline.text) ∧
    spread.text = "import \x7b\n  A,\n  B\n\x7d from './x';" ∧
    ¬IsCommented (neutralizeImports spread.text) ∧
    neutralizeImports spread.text = spread.text := by
  let a : Identifier := ⟨"A", by decide, by decide⟩
  let b : Identifier := ⟨"B", by decide, by decide⟩
  let inline := pairImport a b .single .single
  let spread := pairImport a b ⟨"\n  ", by decide⟩ ⟨"\n", by decide⟩
  have laidOut : inline.IsLaidOut := by
    refine ⟨by decide, by decide, by decide, by decide, fun gap present => ?_⟩
    cases present
    decide
  have commented := (isCommented_neutralizeImports_iff inline).mpr laidOut
  have live : ¬IsCommented (neutralizeImports spread.text) := fun commented =>
    absurd ((isCommented_neutralizeImports_iff spread).mp commented).clause (by decide)
  exact ⟨inline, spread, by decide, commented, by decide, live, by decide +kernel⟩

end Workbench.Script
