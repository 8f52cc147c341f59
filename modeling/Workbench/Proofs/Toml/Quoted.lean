import Workbench.Toml.Printer
import Workbench.Toml.Quoted

/-! A text reads back from the form that it is written in, whichever of the four that is. -/
namespace Workbench.Toml

/-- Text that a closing mark before it does not run into. -/
structure EndsQuote (s : List Char) : Prop where
  quote : s.head? ≠ some '"'
  apostrophe : s.head? ≠ some '\''

namespace QuoteForm

variable (mark : Char)

theorem le_longestRun (run : Nat) (cs : List Char) : run ≤ longestRun mark run cs := by
  induction cs generalizing run with
  | nil => exact Nat.le_refl run
  | cons c rest ih =>
    unfold longestRun
    split
    · exact Nat.le_trans (Nat.le_succ run) (ih (run + 1))
    · exact Nat.le_max_left _ _

theorem longestRun_mono (less more : Nat) (le : less ≤ more) (cs : List Char) :
    longestRun mark less cs ≤ longestRun mark more cs := by
  induction cs generalizing less more with
  | nil => exact le
  | cons c rest ih =>
    unfold longestRun
    split
    · exact ih _ _ (Nat.succ_le_succ le)
    · omega

theorem longestRun_tail (run : Nat) (c : Char) (rest : List Char) :
    longestRun mark 0 rest ≤ longestRun mark run (c :: rest) := by
  rw [longestRun]
  split
  · exact longestRun_mono mark 0 (run + 1) (Nat.zero_le _) rest
  · exact Nat.le_max_right _ _

/-- The marks at the front are a run. -/
theorem length_takeWhile_le (run : Nat) (cs : List Char) :
    run + (cs.takeWhile (· = mark)).length ≤ longestRun mark run cs := by
  induction cs generalizing run with
  | nil => exact Nat.le_refl run
  | cons c rest ih =>
    unfold longestRun
    split
    next same =>
      have front := ih (run + 1)
      simp only [same, List.takeWhile_cons, decide_true, if_true, List.length_cons]
      omega
    next other =>
      rw [List.takeWhile_cons, if_neg (by simpa using other)]
      exact Nat.le_max_left _ _

theorem notMem_of_longestRun (cs : List Char) (markless : longestRun mark 0 cs = 0) :
    mark ∉ cs := by
  induction cs with
  | nil => simp
  | cons c rest ih =>
    have tail := longestRun_tail mark 0 c rest
    rw [List.mem_cons, not_or]
    refine ⟨fun same => ?_, ih (by omega)⟩
    have run := le_longestRun mark 1 rest
    rw [longestRun, if_pos same.symm] at markless
    rw [markless] at run
    cases run

theorem isPlain_of_not_control (c : Char) (printed : isControl c = false) :
    c = '\n' ∨ isPlain c = true := by
  unfold isControl at printed
  unfold isPlain
  simp only [Bool.or_eq_false_iff, Bool.and_eq_false_iff, decide_eq_false_iff_not,
    bne_eq_false_iff_eq, beq_eq_false_iff_ne, Bool.or_eq_true, beq_iff_eq, Bool.and_eq_true,
    decide_eq_true_eq, bne_iff_ne] at printed ⊢
  grind

theorem plain_of_raw (cs : List Char) (raw : choose cs = .raw) :
    ∀ c ∈ cs, isPlain c = true ∧ c ≠ '\'' := by
  unfold choose at raw
  simp only at raw
  -- this form is the second that is tried
  split at raw
  · cases raw
  split at raw
  next can =>
    simp only [Bool.and_eq_true, Bool.not_eq_true', decide_eq_true_eq, List.any_eq_false,
      List.contains_eq_mem, decide_eq_false_iff_not] at can
    obtain ⟨⟨printed, markless⟩, level⟩ := can
    intro c listed
    constructor
    · rcases isPlain_of_not_control c (by simpa using printed c listed) with rfl | plain
      · exact absurd listed level
      · exact plain
    · rintro rfl
      exact notMem_of_longestRun '\'' cs markless listed
  · repeat' split at raw
    all_goals cases raw

theorem plain_of_rawBlock (cs : List Char) (raw : choose cs = .rawBlock) :
    (∀ c ∈ cs, c = '\n' ∨ isPlain c = true) ∧ longestRun '\'' 0 cs ≤ 2 := by
  unfold choose at raw
  simp only at raw
  split at raw
  · cases raw
  split at raw
  · cases raw
  split at raw
  · cases raw
  split at raw
  next can =>
    simp only [Bool.and_eq_true, Bool.not_eq_true', decide_eq_true_eq, List.any_eq_false] at can
    exact ⟨fun c listed => isPlain_of_not_control c (by simpa using can.1 c listed), can.2⟩
  · split at raw
    all_goals cases raw

end QuoteForm

/-- Three marks end a text over several lines if nothing but marks stands before them. -/
theorem blockEnd?_append (mark : Char) (cs rest : List Char)
    (short : (cs.takeWhile (· = mark)).length ≤ 2) (ends : rest.head? ≠ some mark) :
    blockEnd? mark (cs ++ mark :: mark :: mark :: rest) =
      if cs.all (· = mark) then some (cs, rest) else none := by
  have stop : rest.takeWhile (· = mark) = [] := by
    cases rest with
    | nil => rfl
    | cons c more =>
      rw [List.head?_cons, ne_eq, Option.some.injEq] at ends
      simp [ends]
  have stop (n : Nat) : (rest.take n).takeWhile (· = mark) = [] := by
    rw [← List.take_takeWhile, stop, List.take_nil]
  -- the reader looks at five characters, and up to two of them belong to the text
  match cs with
  | [] => simp [blockEnd?, stop]
  | [a] => by_cases first : a = mark <;> simp [blockEnd?, stop, first]
  | [a, b] =>
    by_cases first : a = mark <;> by_cases second : b = mark <;>
      simp_all [blockEnd?]
  | a :: b :: c :: more =>
    by_cases first : a = mark <;> by_cases second : b = mark <;> by_cases third : c = mark <;>
      simp_all [blockEnd?]

theorem numbered?_control (c : Char) (small : c.toNat < 128) :
    numbered? ['0', '0', capitalDigit (c.toNat / 16), capitalDigit (c.toNat % 16)] = some c := by
  -- they are few enough to try each
  have all : ∀ n < 128, numbered? ['0', '0', capitalDigit (n / 16), capitalDigit (n % 16)] =
      some (Char.ofNat n) := by decide +kernel
  rw [all c.toNat small, Char.ofNat_toNat]

/-- What a backslash, a character and some digits stand for. -/
structure Escapes (c e : Char) (more : List Char) : Prop where
  solid : isSpace e = false
  level : e ≠ '\n' ∧ e ≠ '\r'
  reads : ∀ rest, escape? (e :: more ++ rest) = some (c, more.length + 1)

theorem escapes_short (c e : Char) (known : shortEscape? e = some c) : Escapes c e [] := by
  have apart (other : Char) (unknown : shortEscape? other = none) : e ≠ other := by
    rintro rfl
    rw [unknown] at known
    cases known
  refine ⟨?_, ⟨apart _ rfl, apart _ rfl⟩, fun rest => ?_⟩
  · simp [isSpace, apart ' ' rfl, apart '\t' rfl]
  · rw [List.cons_append, escape?, known]
    · rfl
    · exact apart 'u' rfl
    · exact apart 'U' rfl

/-- A character between quotation marks stands as it is or is told behind a backslash. -/
theorem escapeChar_cases (c : Char) :
    escapeChar c = [c] ∧ isPlain c = true ∧ c ≠ '\\' ∧ c ≠ '\n' ∧ c ≠ '\r' ∨
    ∃ e more, escapeChar c = '\\' :: e :: more ∧ Escapes c e more := by
  have numbered (n : Nat) (same : c.toNat = n) : Char.ofNat n = c := by
    rw [← same, Char.ofNat_toNat]
  unfold escapeChar
  by_cases slash : c = '\\'
  · rw [if_pos slash]
    exact .inr ⟨_, _, rfl, escapes_short c '\\' (by rw [slash]; rfl)⟩
  by_cases line : c = '\n'
  · rw [if_neg slash, if_pos line]
    exact .inr ⟨_, _, rfl, escapes_short c 'n' (by rw [line]; rfl)⟩
  by_cases ret : c = '\r'
  · rw [if_neg slash, if_neg line, if_pos ret]
    exact .inr ⟨_, _, rfl, escapes_short c 'r' (by rw [ret]; rfl)⟩
  rw [if_neg slash, if_neg line, if_neg ret]
  by_cases tab : c = '\t'
  · rw [if_pos tab]
    exact .inr ⟨_, _, rfl, escapes_short c 't' (by rw [tab]; rfl)⟩
  by_cases back : c.toNat = 8
  · rw [if_neg tab, if_pos back]
    exact .inr ⟨_, _, rfl, escapes_short c 'b' (congrArg some (numbered 8 back))⟩
  rw [if_neg tab, if_neg back]
  by_cases feed : c.toNat = 12
  · rw [if_pos feed]
    exact .inr ⟨_, _, rfl, escapes_short c 'f' (congrArg some (numbered 12 feed))⟩
  rw [if_neg feed]
  by_cases hidden : (decide (c.toNat < 32) || decide (c.toNat = 127)) = true
  · rw [if_pos hidden]
    refine .inr ⟨_, _, rfl, rfl, by decide, fun rest => ?_⟩
    have small : c.toNat < 128 := by
      simp only [Bool.or_eq_true, decide_eq_true_eq] at hidden
      omega
    simp [escape?, numbered?_control c small]
  · refine .inl ⟨if_neg hidden, ?_, slash, line, ret⟩
    simp only [Bool.or_eq_true, decide_eq_true_eq, not_or] at hidden
    simp [isPlain, hidden.2]
    omega

/-- A text in quotation marks on one line reads back. -/
theorem quotedLine_escaped (cs rest : List Char) (run : Nat) :
    quotedLine (escaped false run cs ++ '"' :: rest) = some (cs, rest) := by
  induction cs generalizing run with
  | nil =>
    rw [escaped, List.nil_append, quotedLine, if_pos rfl]
  | cons c cs ih =>
    rw [escaped]
    by_cases quote : c = '"'
    · simp [quote, quotedLine, escape?, shortEscape?, ih]
    · simp only [quote, if_false, Bool.false_and, Bool.false_eq_true]
      rcases escapeChar_cases c with ⟨same, plain, slash, -⟩ | ⟨e, more, same, escapes⟩
      · simp [same, quotedLine, quote, slash, plain, ih]
      · rw [same, List.append_assoc, List.cons_append, quotedLine, if_neg (by decide), if_pos rfl,
          escapes.reads]
        simp [ih]

theorem rawLine_append (cs rest : List Char) (plain : ∀ c ∈ cs, isPlain c = true ∧ c ≠ '\'') :
    rawLine (cs ++ '\'' :: rest) = some (cs, rest) := by
  induction cs with
  | nil => rw [List.nil_append, rawLine, if_pos rfl]
  | cons c cs ih =>
    have first := plain c List.mem_cons_self
    rw [List.cons_append, rawLine, if_neg first.2, if_pos first.1,
      ih fun c listed => plain c (List.mem_cons_of_mem _ listed)]
    rfl

theorem breakLength_of_level (c : Char) (level : c ≠ '\n' ∧ c ≠ '\r') (rest : List Char) :
    breakLength (c :: rest) = 0 := by
  unfold breakLength
  split
  next same => exact absurd (List.cons.inj same).1 level.1
  next same => exact absurd (List.cons.inj same).1 level.2
  next => rfl

theorem breakLength_of_plain (c : Char) (plain : isPlain c = true) (rest : List Char) :
    breakLength (c :: rest) = 0 := by
  refine breakLength_of_level c ⟨?_, ?_⟩ rest
  · rintro rfl
    cases plain
  · rintro rfl
    cases plain

theorem rawBlock_append (cs rest : List Char)
    (plain : ∀ c ∈ cs, c = '\n' ∨ isPlain c = true)
    (short : QuoteForm.longestRun '\'' 0 cs ≤ 2) (ends : rest.head? ≠ some '\'') :
    rawBlock (cs ++ '\'' :: '\'' :: '\'' :: rest) = some (cs, rest) := by
  have run := QuoteForm.length_takeWhile_le '\'' 0 cs
  have closed := blockEnd?_append '\'' cs rest (by omega) ends
  induction cs with
  | nil =>
    rw [List.nil_append] at closed ⊢
    rw [rawBlock, closed]
    rfl
  | cons c cs ih =>
    -- behind the first character there is no longer run of marks than in the whole text
    have tail := QuoteForm.longestRun_tail '\'' 0 c cs
    have run := QuoteForm.length_takeWhile_le '\'' 0 cs
    have later := ih (fun c listed => plain c (List.mem_cons_of_mem _ listed)) (by omega) run
      (blockEnd?_append '\'' cs rest (by omega) ends)
    rw [List.cons_append] at closed ⊢
    rw [rawBlock, closed]
    by_cases all : (c :: cs).all (· = '\'') = true
    · -- nothing but marks is left, and they are taken with those of the end
      simp only [all, if_true]
    · simp only [all]
      rcases plain c List.mem_cons_self with rfl | solid
      · simp [breakLength, later]
      · simp [breakLength_of_plain c solid, solid, later]

/-- In a block, a character stands as it is, unless it is told behind a backslash. -/
theorem escaped_block_cons (run : Nat) (c : Char) (cs : List Char) :
    (c = '"' ∧ run < 2 ∧ escaped true run (c :: cs) = c :: escaped true (run + 1) cs) ∨
    (c ≠ '"' ∧ c ≠ '\\' ∧ (c = '\n' ∨ isPlain c = true) ∧
      escaped true run (c :: cs) = c :: escaped true 0 cs) ∨
    ∃ e more, escaped true run (c :: cs) = '\\' :: e :: more ++ escaped true 0 cs ∧
      Escapes c e more := by
  rw [escaped]
  by_cases quote : c = '"'
  · subst quote
    by_cases few : run < 2
    · exact .inl ⟨rfl, few, by simp [few]⟩
    · exact .inr (.inr ⟨'"', [], by simp [few], escapes_short '"' '"' rfl⟩)
  · by_cases line : c = '\n'
    · subst line
      exact .inr (.inl ⟨by decide, by decide, .inl rfl, by simp⟩)
    · rcases escapeChar_cases c with ⟨same, plain, slash, -⟩ | ⟨e, more, same, escapes⟩
      · exact .inr (.inl ⟨quote, slash, .inr plain, by simp [quote, line, same]⟩)
      · exact .inr (.inr ⟨e, more, by simp [quote, line, same], escapes⟩)

/-- There are never more than two quotation marks in a row in a block. -/
theorem escaped_block_run (cs : List Char) (run : Nat) (few : run ≤ 2) :
    run + ((escaped true run cs).takeWhile (· = '"')).length ≤ 2 := by
  induction cs generalizing run with
  | nil => exact few
  | cons c cs ih =>
    rcases escaped_block_cons run c cs with
      ⟨rfl, fewer, same⟩ | ⟨quote, -, -, same⟩ | ⟨e, more, same, -⟩
    · have later := ih (run + 1) fewer
      simp only [same, List.takeWhile_cons, decide_true, if_true, List.length_cons]
      omega
    · simp [same, quote, few]
    · simp [same, few]

theorem continued?_of_solid (e : Char) (rest : List Char) (solid : isSpace e = false)
    (level : e ≠ '\n' ∧ e ≠ '\r') : continued? (e :: rest) = none := by
  have kept : skipSpace (e :: rest) = e :: rest := by simp [skipSpace, solid]
  rw [continued?, kept, if_pos (breakLength_of_level e level rest)]

theorem quotedBlock_of_end (s : List Char) (found : List Char × List Char)
    (closed : blockEnd? '"' s = some found) : quotedBlock s = some found := by
  cases s with
  | nil => simp [blockEnd?] at closed
  | cons c rest =>
    rw [quotedBlock, closed]

theorem quotedBlock_escaped (cs rest : List Char) (run : Nat) (few : run ≤ 2)
    (ends : rest.head? ≠ some '"') :
    quotedBlock (escaped true run cs ++ '"' :: '"' :: '"' :: rest) = some (cs, rest) := by
  induction cs generalizing run with
  | nil =>
    have closed := blockEnd?_append '"' [] rest (by simp) ends
    rw [escaped]
    exact quotedBlock_of_end _ _ closed
  | cons c cs ih =>
    -- the end is found here only if marks are all that is left before it
    have short := escaped_block_run (c :: cs) run few
    have closed := blockEnd?_append '"' (escaped true run (c :: cs)) rest (by omega) ends
    rcases escaped_block_cons run c cs with
      ⟨rfl, fewer, same⟩ | ⟨quote, slash, plain, same⟩ | ⟨e, more, same, escapes⟩
    · have later := ih (run + 1) fewer
      rw [same] at closed ⊢
      by_cases all : (escaped true (run + 1) cs).all (· = '"') = true
      · -- the marks at the end belong to the text, as they do without the first one
        have fewer := escaped_block_run cs (run + 1) fewer
        have shorter := blockEnd?_append '"' (escaped true (run + 1) cs) rest (by omega) ends
        rw [if_pos all] at shorter
        rw [quotedBlock_of_end _ _ shorter] at later
        obtain ⟨back, -⟩ := Prod.mk.inj (Option.some.inj later)
        rw [if_pos (by simpa using all)] at closed
        rw [quotedBlock_of_end _ _ closed, back]
      · rw [if_neg (by simpa using all)] at closed
        rw [List.cons_append] at closed ⊢
        rw [quotedBlock, closed]
        simp [breakLength, isPlain, later]
    · rw [same] at closed ⊢
      rw [if_neg (by simp [quote]), List.cons_append] at closed
      rw [List.cons_append, quotedBlock, closed]
      rcases plain with rfl | plain
      · simp [breakLength, ih 0 (by omega)]
      · simp [slash, breakLength_of_plain c plain, plain, ih 0 (by omega)]
    · rw [same] at closed ⊢
      rw [if_neg (by simp), List.append_assoc, List.cons_append, List.cons_append] at closed
      rw [List.append_assoc, List.cons_append, List.cons_append, quotedBlock, closed]
      simp only [if_true]
      split
      next found =>
        rw [continued?_of_solid e _ escapes.solid escapes.level] at found
        cases found
      next =>
        rw [← List.cons_append, escapes.reads]
        simp [ih 0 (by omega)]

theorem quoted_of_single (mark : Char) (s : List Char) (single : s.take 2 ≠ [mark, mark]) :
    quoted (mark :: s) = quotedKey (mark :: s) := by
  unfold quoted
  split
  next same =>
    cases same
    exact absurd rfl single
  next same =>
    cases same
    exact absurd rfl single
  next => rfl

/-- The text between two quotation marks is not taken for a third one. -/
theorem take_escaped_ne (cs rest : List Char) (ends : rest.head? ≠ some '"') :
    (escaped false 0 cs ++ '"' :: rest).take 2 ≠ ['"', '"'] := by
  cases cs with
  | nil =>
    cases rest with
    | nil => simp [escaped]
    | cons c rest => simpa [escaped] using ends
  | cons c cs =>
    rw [escaped]
    by_cases quote : c = '"'
    · simp [quote]
    · rcases escapeChar_cases c with ⟨same, -⟩ | ⟨e, more, same, -⟩ <;> simp [quote, same]

/-- A text reads back as it is written, if what follows does not begin with a mark. -/
theorem quoted_quote (s : String) (rest : List Char) (ends : EndsQuote rest) :
    quoted (quote s ++ rest) = some (s, rest) := by
  cases form : QuoteForm.choose s.toList with
  | line =>
    simp only [quote, form, List.append_assoc, List.cons_append, List.nil_append]
    rw [quoted_of_single _ _ (take_escaped_ne _ _ ends.quote), quotedKey, quotedLine_escaped]
    simp
  | raw =>
    have plain := QuoteForm.plain_of_raw s.toList form
    -- only an empty text would put two marks in a row, and that one is not written so
    have single : (s.toList ++ '\'' :: rest).take 2 ≠ ['\'', '\''] := by
      cases chars : s.toList with
      | nil =>
        rw [chars] at form
        cases form
      | cons c cs =>
        have first := (plain c (by simp [chars])).2
        simp [first]
    simp only [quote, form, List.append_assoc, List.cons_append, List.nil_append]
    rw [quoted_of_single _ _ single, quotedKey, rawLine_append _ _ plain]
    simp
  | block =>
    have text : "\"\"\"\n".toList ++ escaped true 0 s.toList ++ "\"\"\"".toList ++ rest =
        '"' :: '"' :: '"' :: '\n' :: (escaped true 0 s.toList ++ '"' :: '"' :: '"' :: rest) := by
      simp
    simp only [quote, form, text, quoted, dropBreak, breakLength, List.drop_succ_cons,
      List.drop_zero, quotedBlock_escaped _ _ 0 (by omega) ends.quote]
    simp
  | rawBlock =>
    obtain ⟨plain, short⟩ := QuoteForm.plain_of_rawBlock s.toList form
    have text : "'''\n".toList ++ s.toList ++ "'''".toList ++ rest =
        '\'' :: '\'' :: '\'' :: '\n' :: (s.toList ++ '\'' :: '\'' :: '\'' :: rest) := by
      simp
    simp only [quote, form, text, quoted, dropBreak, breakLength, List.drop_succ_cons,
      List.drop_zero, rawBlock_append _ _ plain short ends.apostrophe]
    simp

end Workbench.Toml
