import Mathlib.Data.List.Infix
import Workbench.Proofs.Pattern.Lines

/-!
# Imports as the rules see them

A rule for imports looks for a front, a specifier between quotes and perhaps a semicolon. The
front begins with the keyword and a blank. In a line with one specifier a rule can begin in the
front only, and if what it reads as its front holds no quote, it has to read the specifier of the
line as its own.
-/
namespace Workbench.Script

open Pattern

def IsQuote (c : Char) : Prop := c = '\'' ∨ c = '"'

/-- A text without quotes. -/
def IsUnquoted (xs : List Char) : Prop := ∀ c ∈ xs, ¬IsQuote c

theorem IsUnquoted.append {xs ys : List Char} (first : IsUnquoted xs) (second : IsUnquoted ys) :
    IsUnquoted (xs ++ ys) := by
  intro c member
  rcases List.mem_append.mp member with here | there
  · exact first c here
  · exact second c there

theorem IsUnquoted.of_subset {xs ys : List Char} (plain : IsUnquoted ys) (within : xs ⊆ ys) :
    IsUnquoted xs :=
  fun c member => plain c (within member)

theorem IsQuote.not_blank {c : Char} (mark : IsQuote c) : Text.isBlank c = false := by
  rcases mark with rfl | rfl <;> decide

theorem IsUnquoted.of_blank {xs : List Char} (blank : ∀ c ∈ xs, Text.isBlank c = true) :
    IsUnquoted xs := by
  intro c member mark
  simpa [mark.not_blank] using blank c member

/-- The first quotes in two readings of one text are the same. -/
theorem IsUnquoted.unique {xs ys rest rest' : List Char} {q q' : Char} (first : IsUnquoted xs)
    (second : IsUnquoted ys) (mark : IsQuote q) (mark' : IsQuote q')
    (same : xs ++ q :: rest = ys ++ q' :: rest') : xs = ys ∧ q = q' ∧ rest = rest' := by
  rcases List.append_eq_append_iff.mp same with ⟨more, rfl, behind⟩ | ⟨more, rfl, behind⟩
  · cases more with
    | nil =>
      cases behind
      exact ⟨by simp, rfl, rfl⟩
    | cons c more =>
      cases behind
      exact absurd mark (second q (by simp))
  · cases more with
    | nil =>
      cases behind
      exact ⟨by simp, rfl, rfl⟩
    | cons c more =>
      cases behind
      exact absurd mark' (first q' (by simp))

instance : DecidablePred IsQuote :=
  fun c => inferInstanceAs (Decidable (c = '\'' ∨ c = '"'))

instance : DecidablePred IsUnquoted :=
  fun xs => List.decidableBAll (fun c => ¬IsQuote c) xs

/-- Each brace that opens is closed behind it. -/
def IsClosed (xs : List Char) : Prop :=
  ∀ front back, xs = front ++ '\x7b' :: back → '\x7d' ∈ back

instance : DecidablePred IsClosed := fun xs =>
  decidable_of_iff (∀ back ∈ xs.tails, back.head? = some '\x7b' → '\x7d' ∈ back) <| by
    constructor
    · rintro closed front back rfl
      have within := closed _ ((List.mem_tails _ _).mpr (List.suffix_append front _)) rfl
      simpa using within
    · intro closed back listed first
      obtain ⟨front, rfl⟩ := (List.mem_tails _ _).mp listed
      obtain ⟨rest, rfl⟩ := List.head?_eq_some_iff.mp first
      exact List.mem_cons_of_mem _ (closed front rest rfl)

theorem IsClosed.of_suffix {xs ys : List Char} (closed : IsClosed ys) (ends : xs <:+ ys) :
    IsClosed xs := by
  obtain ⟨more, rfl⟩ := ends
  rintro front back rfl
  exact closed (more ++ front) back (by simp)

theorem IsClosed.append {xs ys : List Char} (first : IsClosed xs) (second : IsClosed ys) :
    IsClosed (xs ++ ys) := by
  intro front back same
  rcases List.append_eq_append_iff.mp same with ⟨more, -, behind⟩ | ⟨more, rfl, behind⟩
  · exact second more back behind
  · rcases List.cons_eq_append_iff.mp behind with ⟨-, here⟩ | ⟨between, rfl, rfl⟩
    · exact second [] back here
    · exact List.mem_append_left _ (first front between rfl)

theorem IsClosed.of_notMem {xs : List Char} (free : '\x7b' ∉ xs) : IsClosed xs := by
  rintro front back rfl
  simp at free

theorem IsClosed.of_last (xs : List Char) : IsClosed (xs ++ ['\x7d']) := by
  intro front back same
  rcases List.eq_nil_or_concat' back with rfl | ⟨init, z, rfl⟩
  · have last := (List.append_inj' same rfl).2
    exact absurd last (by decide)
  · rw [← List.cons_append, ← List.append_assoc] at same
    have last := (List.append_inj' same rfl).2
    exact List.mem_append_right _ (last ▸ List.mem_singleton_self '\x7d')

/-- A block that begins before the first quote ends before it. -/
theorem isUnquoted_of_block {head front body rest rest' : List Char} {q : Char}
    (closed : IsClosed head) (plain : IsUnquoted head) (plain' : IsUnquoted front)
    (free : '\x7d' ∉ body) (mark : IsQuote q)
    (same : head ++ q :: rest = front ++ '\x7b' :: (body ++ '\x7d' :: rest')) :
    IsUnquoted body := by
  have brace : ¬IsQuote '\x7b' := by simp [IsQuote]
  rcases List.append_eq_append_iff.mp same with ⟨more, rfl, behind⟩ | ⟨more, rfl, behind⟩
  · -- the quote would come before the brace
    rcases List.cons_eq_append_iff.mp behind with ⟨rfl, here⟩ | ⟨_, rfl, -⟩
    · cases here
      exact absurd mark brace
    · exact absurd mark (plain' q (by simp))
  · rcases List.cons_eq_append_iff.mp behind with ⟨rfl, here⟩ | ⟨more, rfl, later⟩
    · cases here
      exact absurd mark brace
    · rcases List.append_eq_append_iff.mp later with ⟨between, rfl, -⟩ | ⟨between, rfl, -⟩
      · exact plain.of_subset fun c member => by simp [member]
      · exact absurd (List.mem_append_left _ (closed front more rfl)) free

/-- An end of a text put together of two is one of the second, or goes on into the first. -/
theorem suffix_append_cases {α : Type} {back xs ys : List α} (ends : back <:+ xs ++ ys) :
    back <:+ ys ∨ ∃ more, more ≠ [] ∧ more <:+ xs ∧ back = more ++ ys := by
  obtain ⟨front, same⟩ := ends
  rcases List.append_eq_append_iff.mp same with ⟨more, rfl, behind⟩ | ⟨more, rfl, behind⟩
  · by_cases empty : more = []
    · subst empty
      exact .inl ⟨[], by simpa using behind⟩
    · exact .inr ⟨more, empty, List.suffix_append front more, behind⟩
  · exact .inl ⟨more, behind.symm⟩

/-- An end of a text that lacks one of its characters lies behind it. -/
theorem suffix_of_notMem {α : Type} {back xs ys : List α} {a : α} (ends : back <:+ xs ++ a :: ys)
    (free : a ∉ back) : back <:+ ys := by
  rcases suffix_append_cases ends with ends | ⟨more, -, -, rfl⟩
  · rcases List.suffix_cons_iff.mp ends with rfl | ends
    · simp at free
    · exact ends
  · simp at free

/-- Whether a pattern may read a character anywhere. -/
def canRead (a : Char) : Pattern → Bool
  | .one kind | .many _ kind => kind.has a
  | .edge => false
  | .seq p q => canRead a p || canRead a q
  | .maybe part | .capture _ part => canRead a part

theorem canRead_of_reads {p : Pattern} {xs : List Char} {groups : List (Nat × List Char)}
    (reads : p.Reads xs groups) : ∀ c ∈ xs, canRead c p = true := by
  induction reads with
  | one member =>
    intro c listed
    rwa [List.mem_singleton.mp listed]
  | edge | absent => exact fun c among => by cases among
  | seq _ _ first second =>
    intro c listed
    rw [canRead, Bool.or_eq_true]
    exact (List.mem_append.mp listed).imp (first c) (second c)
  | present _ ih | capture _ _ ih => exact ih
  | many _ members => exact members

theorem isUnquoted_of_reads {p : Pattern} {xs : List Char} {groups : List (Nat × List Char)}
    (quoteless : canRead '\'' p = false ∧ canRead '"' p = false) (reads : p.Reads xs groups) :
    IsUnquoted xs := by
  rintro c listed (rfl | rfl)
  · simpa [quoteless.1] using canRead_of_reads reads _ listed
  · simpa [quoteless.2] using canRead_of_reads reads _ listed

/-- A front and a specifier between quotes. -/
def quoting (front core : Pattern) : Pattern := .all front [quote, core, quote]

theorem reads_quote_iff (xs : List Char) (groups : List (Nat × List Char)) :
    quote.Reads xs groups ↔ ∃ q, IsQuote q ∧ xs = [q] ∧ groups = [] := by
  simp [quote, reads_one_iff, CharClass.has, IsQuote]

theorem reads_quoting_iff (front core : Pattern) (xs : List Char)
    (groups : List (Nat × List Char)) : (quoting front core).Reads xs groups ↔
      ∃ ys zs q q' before behind, front.Reads ys before ∧ core.Reads zs behind ∧ IsQuote q ∧
        IsQuote q' ∧ xs = ys ++ q :: (zs ++ [q']) ∧ groups = behind ++ before := by
  simp only [quoting, reads_all_iff, ReadsAll, reads_quote_iff]
  constructor
  · rintro ⟨ys, _, before, _, front, ⟨_, _, _, _, ⟨q, mark, rfl, rfl⟩, ⟨zs, _, behind, _, core,
      ⟨_, _, _, _, ⟨q', mark', rfl, rfl⟩, ⟨rfl, rfl⟩, rfl, rfl⟩, rfl, rfl⟩, rfl, rfl⟩, rfl, rfl⟩
    exact ⟨ys, zs, q, q', before, _, front, core, mark, mark', by simp, by simp⟩
  · rintro ⟨ys, zs, q, q', before, behind, front, core, mark, mark', rfl, rfl⟩
    exact ⟨ys, _, before, _, front, ⟨_, _, _, _, ⟨q, mark, rfl, rfl⟩, ⟨zs, _, behind, _, core,
      ⟨_, _, _, _, ⟨q', mark', rfl, rfl⟩, ⟨rfl, rfl⟩, rfl, rfl⟩, rfl, rfl⟩, rfl, rfl⟩, by simp,
      by simp⟩

/-- A front and a specifier between quotes, which are the first in the text. Each brace that opens
in the front is closed there. -/
structure Quotation where
  head : List Char
  mark : Char
  specifier : List Char
  mark' : Char
  head_closed : IsClosed head
  head_plain : IsUnquoted head
  isQuote : IsQuote mark
  specifier_plain : IsUnquoted specifier
  isQuote' : IsQuote mark'

def Quotation.text (x : Quotation) : List Char :=
  x.head ++ x.mark :: (x.specifier ++ [x.mark'])

/-- A line with a specifier between quotes, the first of its quotes, and perhaps a semicolon. -/
structure QuotedLine where
  head : List Char
  mark : Char
  specifier : List Char
  stop : List Char
  head_closed : IsClosed head
  head_plain : IsUnquoted head
  isQuote : IsQuote mark
  specifier_plain : IsUnquoted specifier
  specifier_solid : ∀ c ∈ specifier, Text.isBlank c = false
  stops : stop = [';'] ∨ stop = []

namespace QuotedLine

def text (l : QuotedLine) : List Char :=
  l.head ++ l.mark :: (l.specifier ++ l.mark :: l.stop)

def quotation (l : QuotedLine) : Quotation where
  head := l.head
  mark := l.mark
  specifier := l.specifier
  mark' := l.mark
  head_closed := l.head_closed
  head_plain := l.head_plain
  isQuote := l.isQuote
  specifier_plain := l.specifier_plain
  isQuote' := l.isQuote

theorem text_eq (l : QuotedLine) : l.text = l.quotation.text ++ l.stop := by
  simp [text, quotation, Quotation.text]

end QuotedLine

/-- What a front reads before a quote holds no quote, even if it could go on behind it. -/
def Heeds (front : Pattern) : Prop :=
  ∀ head, IsClosed head → IsUnquoted head → ∀ ys groups q rest rest', IsQuote q →
    front.Reads ys groups → head ++ q :: rest = ys ++ rest' → IsUnquoted ys

/-- A rule that looks for a front, a specifier and perhaps a semicolon. -/
structure IsImportRule (rule : RewriteRule) (front core : Pattern) : Prop where
  same : rule.pattern.outcomes = ((quoting front core).marked ';').outcomes
  opens : ∀ ys groups, front.Reads ys groups →
    ∃ c more, ys = "import".toList ++ c :: more ∧ Text.isBlank c = true
  heeds : Heeds front
  plain : ∀ zs groups, core.Reads zs groups → IsUnquoted zs
  edgeless : (quoting front core).isEdgeless = true

/-- The keyword and a blank do not begin before a character that belongs to neither, unless they end
before it. -/
theorem ne_keyword {front rest more : List Char} {a c : Char}
    (keyless : ∀ between, front ≠ "import".toList ++ c :: between) (outside : a ∉ "import".toList)
    (solid : Text.isBlank a = false) (blank : Text.isBlank c = true) :
    front ++ a :: rest ≠ "import".toList ++ c :: more := by
  intro same
  rcases List.append_eq_append_iff.mp same with ⟨between, word, behind⟩ | ⟨between, rfl, behind⟩
  · rcases List.cons_eq_append_iff.mp behind with ⟨rfl, here⟩ | ⟨_, rfl, -⟩
    · cases here
      simp [blank] at solid
    · exact outside (word ▸ by simp)
  · rcases List.cons_eq_append_iff.mp behind with ⟨rfl, here⟩ | ⟨between, rfl, -⟩
    · cases here
      simp [blank] at solid
    · exact keyless between rfl

/-- From the specifier on, the keyword and a blank come next at no place of a line. -/
theorem QuotedLine.ne_keyword (l : QuotedLine) {back tail more : List Char} {c : Char}
    (ends : back <:+ l.mark :: (l.specifier ++ l.mark :: l.stop)) (nonempty : back ≠ [])
    (blank : Text.isBlank c = true) : back ++ tail ≠ "import".toList ++ c :: more := by
  have outside : l.mark ∉ "import".toList := by
    rcases l.isQuote with same | same <;> rw [same] <;> decide
  have marked (left rest : List Char) (solid : ∀ a ∈ left, Text.isBlank a = false) :
      left ++ l.mark :: rest ≠ "import".toList ++ c :: more := by
    refine Script.ne_keyword (fun between same => ?_) outside l.isQuote.not_blank blank
    simpa [blank] using solid c (by simp [same])
  rcases List.suffix_cons_iff.mp ends with rfl | ends
  · exact marked [] _ (by simp)
  · rcases suffix_append_cases ends with ends | ⟨left, -, within, rfl⟩
    · rcases List.suffix_cons_iff.mp ends with rfl | ends
      · exact marked [] _ (by simp)
      · rcases l.stops with stop | stop <;> rw [stop] at ends
        · obtain rfl : back = [';'] := by
            rcases List.suffix_cons_iff.mp ends with rfl | short
            · rfl
            · exact absurd (List.suffix_nil.mp short) nonempty
          have ne : [] ++ ';' :: tail ≠ "import".toList ++ c :: more :=
            Script.ne_keyword (by simp) (by decide) (by decide) blank
          exact ne
        · exact absurd (List.suffix_nil.mp ends) nonempty
    · rw [List.append_assoc, List.cons_append]
      exact marked left _ fun a listed => l.specifier_solid a (within.subset listed)

namespace IsImportRule

variable {rule : RewriteRule} {front core : Pattern} {begins : Char → Prop}

/-- The rule does not fit where the keyword and a blank do not come next. -/
theorem failsAt_of_ne (isRule : IsImportRule rule front core) {before after : List Char}
    (ne : ∀ c more, Text.isBlank c = true → after ≠ "import".toList ++ c :: more) :
    rule.pattern.FailsAt ⟨before, after⟩ := by
  refine failsAt_of_outcomes isRule.same (failsAt_of_reads fun xs groups rest reads same => ?_)
  obtain ⟨_, _, _, _, quoted, -, rfl, -⟩ := reads_seq_iff.mp reads
  obtain ⟨ys, zs, q, _, _, _, opening, -, -, -, rfl, -⟩ := (reads_quoting_iff _ _ _ _).mp quoted
  obtain ⟨c, more, rfl, blank⟩ := isRule.opens _ _ opening
  exact ne c _ blank (by simpa using same)

theorem newline (isRule : IsImportRule rule front core) (before rest : List Char) :
    rule.pattern.FailsAt ⟨before, '\n' :: rest⟩ :=
  isRule.failsAt_of_ne fun c more _ same => by simp at same

/-- From the front of a quotation the rule reads the rest of the front, and the specifier. -/
theorem eq_of_reads (isRule : IsImportRule rule front core) (x : Quotation)
    (rest rest' : List Char) {back xs : List Char} {groups : List (Nat × List Char)}
    (ends : back <:+ x.head) (reads : (quoting front core).Reads xs groups)
    (same : back ++ x.mark :: (x.specifier ++ x.mark' :: rest) = xs ++ rest') :
    ∃ before behind, front.Reads back before ∧ core.Reads x.specifier behind ∧
      xs = back ++ x.mark :: (x.specifier ++ [x.mark']) ∧ groups = behind ++ before := by
  obtain ⟨ys, zs, q, q', before, behind, opening, closing, mark, mark', rfl, rfl⟩ :=
    (reads_quoting_iff _ _ _ _).mp reads
  have inside := x.head_plain.of_subset ends.subset
  have plain := isRule.heeds back (x.head_closed.of_suffix ends) inside ys before _ _
    (q :: (zs ++ [q']) ++ rest') x.isQuote opening (by simpa using same)
  obtain ⟨rfl, rfl, same⟩ := inside.unique plain x.isQuote mark (by simpa using same)
  obtain ⟨rfl, rfl, -⟩ := x.specifier_plain.unique (isRule.plain zs behind closing) x.isQuote' mark'
    (by simpa using same)
  exact ⟨before, behind, opening, closing, rfl, rfl⟩

/-- The rule does not fit in the front of a quotation where it does not read the rest of the front,
or not the specifier. -/
theorem failsAt_of_apart (isRule : IsImportRule rule front core) (x : Quotation)
    {back : List Char} (ends : back <:+ x.head)
    (apart : ∀ before behind, front.Reads back before → ¬core.Reads x.specifier behind)
    (before rest : List Char) :
    rule.pattern.FailsAt ⟨before, back ++ x.mark :: (x.specifier ++ x.mark' :: rest)⟩ := by
  refine failsAt_of_outcomes isRule.same (failsAt_of_reads fun xs groups rest' reads same => ?_)
  obtain ⟨ys, zs, _, _, quoted, -, rfl, -⟩ := reads_seq_iff.mp reads
  obtain ⟨_, _, opening, closing, -⟩ := isRule.eq_of_reads x rest (zs ++ rest') ends
    quoted (by simpa using same)
  exact apart _ _ opening closing

/-- A quotation is kept if the rule reads no end of its front, or not its specifier, and fits at no
place behind its first quote. -/
theorem keeps_of_apart (isRule : IsImportRule rule front core) (x : Quotation)
    (rest : List Char) (apart : ∀ back, back <:+ x.head → ∀ before behind,
      front.Reads back before → ¬core.Reads x.specifier behind)
    (inner : ∀ back, back <:+ x.specifier ++ [x.mark'] → back ≠ [] → ∀ before,
      rule.pattern.FailsAt ⟨before, back ++ rest⟩) : rule.Keeps x.text rest := by
  refine RewriteRule.keeps_of_fails fun back ends nonempty before => ?_
  rcases suffix_append_cases ends with ends | ⟨more, -, within, rfl⟩
  · rcases List.suffix_cons_iff.mp ends with rfl | ends
    · -- the quote is not the first letter of the keyword
      refine isRule.failsAt_of_ne fun c more _ same => ?_
      have mark : x.mark = 'i' := (List.cons.inj same).1
      have isQuote := x.isQuote
      rw [mark] at isQuote
      exact absurd isQuote (by decide)
    · exact inner back ends nonempty before
  · have fails := isRule.failsAt_of_apart x within (apart more within) before rest
    simpa using fails

/-- A quotation is replaced if the rule reads its front and its specifier, and a semicolon behind
it is too. -/
theorem applyFrom_of_reads (isRule : IsImportRule rule front core) (x : Quotation)
    (opening : ∃ before, front.Reads x.head before)
    (closing : ∃ behind, core.Reads x.specifier behind) {stop rest : List Char}
    (stops : stop = [';'] ∨ stop = [] ∧ rest.head? ≠ some ';') (before : List Char) :
    ∃ opened closed, front.Reads x.head opened ∧ core.Reads x.specifier closed ∧
      rule.applyFrom before (x.text ++ (stop ++ rest)) =
        fillFrom (closed ++ opened) rule.replacement ++
          rule.applyFrom ((x.text ++ stop).reverse ++ before) rest := by
  obtain ⟨groups, opening⟩ := opening
  obtain ⟨groups', closing⟩ := closing
  have reads : (quoting front core).Reads x.text (groups' ++ groups) :=
    (reads_quoting_iff _ _ _ _).mpr
      ⟨_, _, _, _, _, _, opening, closing, x.isQuote, x.isQuote', rfl, rfl⟩
  have nonempty : x.text ≠ [] := by simp [Quotation.text]
  have only : ∀ ys groups rest', (quoting front core).Reads ys groups →
      x.text ++ (stop ++ rest) = ys ++ rest' → ys = x.text := by
    intro ys _ rest' other same
    obtain ⟨_, _, -, -, here, -⟩ := isRule.eq_of_reads x (stop ++ rest) rest' List.suffix_rfl other
      (by simpa [Quotation.text] using same)
    exact here
  obtain ⟨_, own, rewritten⟩ :=
    RewriteRule.applyFrom_marked isRule.same isRule.edgeless nonempty stops ⟨_, reads⟩ only before
  obtain ⟨opened, closed, opening, closing, -, rfl⟩ := isRule.eq_of_reads x [] [] List.suffix_rfl
    own (by simp [Quotation.text])
  exact ⟨opened, closed, opening, closing, rewritten⟩

/-- A line is kept if the rule reads no end of its front, or not its specifier. -/
theorem turnsLine_of_apart (isRule : IsImportRule rule front core) (l : QuotedLine)
    (apart : ∀ back, back <:+ l.head → ∀ before behind, front.Reads back before →
      ¬core.Reads l.specifier behind) : rule.TurnsLine begins l.text l.text := by
  refine .of_quiet fun back ends nonempty tail _ before => ?_
  -- only in the front may the keyword and a blank come next
  rcases suffix_append_cases ends with ends | ⟨more, -, within, rfl⟩
  · exact isRule.failsAt_of_ne fun c more blank => l.ne_keyword ends nonempty blank
  · have fails := isRule.failsAt_of_apart l.quotation within (apart more within) before
      (l.stop ++ tail)
    simpa [QuotedLine.quotation] using fails

/-- A line is rewritten if the rule reads its front and its specifier. -/
theorem turnsLine_of_reads (isRule : IsImportRule rule front core) (l : QuotedLine)
    {out : List Char} (opening : ∃ before, front.Reads l.head before)
    (closing : ∃ behind, core.Reads l.specifier behind)
    (filled : ∀ before behind, front.Reads l.head before → core.Reads l.specifier behind →
      fillFrom (behind ++ before) rule.replacement = out) :
    rule.TurnsLine begins l.text out := by
  intro before tail follows
  have stops : l.stop = [';'] ∨ l.stop = [] ∧ tail.head? ≠ some ';' := by
    refine l.stops.imp_right fun empty => ⟨empty, ?_⟩
    rcases follows with rfl | ⟨rest, rfl, -⟩ <;> simp
  obtain ⟨_, _, opening, closing, rewritten⟩ :=
    isRule.applyFrom_of_reads l.quotation opening closing stops before
  rw [l.text_eq, List.append_assoc, rewritten, filled _ _ opening closing]

end IsImportRule

end Workbench.Script
