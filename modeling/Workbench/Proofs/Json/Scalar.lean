import Workbench.Json.Printer
import Workbench.Json.Reader
import Workbench.Proofs.Text.Numeral

/-! Strings and whole numbers read back as they are written, whatever follows them. -/
namespace Workbench

namespace Json

/-- What a number begins with begins nothing else. -/
theorem apart_of_number (c : Char) (start : Text.StartsNumber c) :
    isSpace c = false ∧ c ≠ ']' ∧ c ≠ '\x7d' ∧ c ≠ '"' ∧ c ≠ '[' ∧ c ≠ '\x7b' ∧ c ≠ 'n' ∧
      c ≠ 't' ∧ c ≠ 'f' := by
  refine ⟨?_, start.ne _ (by decide), start.ne _ (by decide), start.ne _ (by decide),
    start.ne _ (by decide), start.ne _ (by decide), start.ne _ (by decide), start.ne _ (by decide),
    start.ne _ (by decide)⟩
  simp [isSpace, start.ne ' ' (by decide), start.ne '\n' (by decide),
    start.ne '\t' (by decide), start.ne '\r' (by decide)]

/-- A value is not empty, and begins with no blank and no closing bracket. -/
theorem chars_head (v : Json) (level : Nat) : ∃ c rest, chars level v = c :: rest ∧
    isSpace c = false ∧ c ≠ ']' ∧ c ≠ '\x7d' := by
  have known (c : Char) (rest : List Char) (same : chars level v = c :: rest)
      (solid : isSpace c = false ∧ c ≠ ']' ∧ c ≠ '\x7d') : ∃ c rest, chars level v = c :: rest ∧
        isSpace c = false ∧ c ≠ ']' ∧ c ≠ '\x7d' := ⟨c, rest, same, solid⟩
  cases v with
  | null => exact known 'n' _ (by rw [chars]; rfl) (by decide)
  | bool b => cases b with
    | true => exact known 't' _ (by rw [chars]; rfl) (by decide)
    | false => exact known 'f' _ (by rw [chars]; rfl) (by decide)
  | real => exact known '0' _ (by rw [chars]; rfl) (by decide)
  | string s => exact known '"' _ (by rw [chars, quote]; rfl) (by decide)
  | array items => cases items with
    | nil => exact known '[' _ (by rw [chars]; rfl) (by decide)
    | cons => exact known '[' _ (by rw [chars]; rfl) (by decide)
  | object members => cases members with
    | nil => exact known '\x7b' _ (by rw [chars]; rfl) (by decide)
    | cons => exact known '\x7b' _ (by rw [chars]; rfl) (by decide)
  | whole i =>
    obtain ⟨c, rest, written, start⟩ := Text.decimalInt_head i
    have apart := apart_of_number c start
    exact known c rest (by rw [chars, written]) ⟨apart.1, apart.2.1, apart.2.2.1⟩

theorem skip_of_solid (c : Char) (rest : List Char) (solid : isSpace c = false) :
    skip (c :: rest) = c :: rest := by
  simp [skip, solid]

theorem skip_newline (level : Nat) (s : List Char) : skip (newline level ++ s) = skip s := by
  have blank : isSpace ' ' = true ∧ isSpace '\n' = true := by decide
  have blanks (n : Nat) : skip (List.replicate n ' ' ++ s) = skip s := by
    induction n with
    | zero => rfl
    | succ n ih =>
      rw [List.replicate_succ, List.cons_append, skip, List.dropWhile_cons, if_pos blank.1]
      exact ih
  rw [newline, List.cons_append, skip, List.dropWhile_cons, if_pos blank.2]
  exact blanks _

theorem value_newline (fuel level : Nat) (s : List Char) :
    value fuel (newline level ++ s) = value fuel s := by
  cases fuel with
  | zero => rfl
  | succ fuel => rw [value, value, skip_newline]

theorem member_newline (fuel level : Nat) (s : List Char) :
    member fuel (newline level ++ s) = member fuel s := by
  cases fuel with
  | zero => rfl
  | succ fuel => rw [member, member, skip_newline]

theorem pieces_plain (c : Char) (quote : c ≠ '"') (slash : c ≠ '\\') (printed : 32 ≤ c.toNat)
    (fuel : Nat) (rest : List Char) : pieces (fuel + 1) (c :: rest) =
      (pieces fuel rest).map fun (units, rest) => (.char c :: units, rest) := by
  simp only [pieces, quote, slash, Nat.not_lt.mpr printed, if_false]
  cases pieces fuel rest <;> rfl

theorem pieces_short (c e : Char) (known : shortEscape? e = some c) (fuel : Nat)
    (rest : List Char) : pieces (fuel + 1) ('\\' :: e :: rest) =
      (pieces fuel rest).map fun (units, rest) => (.char c :: units, rest) := by
  have other : e ≠ 'u' := by
    rintro rfl
    cases known
  have plain : ('\\' : Char) ≠ '"' ∧ ¬('\\' : Char).toNat < 32 := by decide
  simp only [pieces, plain.1, plain.2, if_false, if_true]
  rw [known]
  cases pieces fuel rest <;> rfl

theorem pieces_numbered (c : Char) (small : c.toNat < 32) (fuel : Nat) (rest : List Char) :
    pieces (fuel + 1) (['\\', 'u', '0', '0', Text.digitChar (c.toNat / 16),
        Text.digitChar (c.toNat % 16)] ++ rest) =
      (pieces fuel rest).map fun (units, rest) => (.char c :: units, rest) := by
  have upper := @Text.isDigitOf_digitChar 16 (by omega) (by omega) (c.toNat / 16)
  have lower := @Text.isDigitOf_digitChar 16 (by omega) (by omega) c.toNat
  rw [Nat.mod_eq_of_lt (by omega)] at upper
  have zero : Text.isDigitOf 16 '0' = true ∧ Text.digitValue? '0' = some 0 := by decide
  have four : fourDigits ('0' :: '0' :: Text.digitChar (c.toNat / 16) ::
      Text.digitChar (c.toNat % 16) :: rest) = some (c.toNat, rest) := by
    have number : c.toNat / 16 * 16 + c.toNat % 16 = c.toNat := by omega
    simp [fourDigits, Text.numberOf, zero, upper, lower,
      Text.digitValue?_digitChar (show c.toNat / 16 < 16 by omega),
      Text.digitValue?_digitChar (show c.toNat % 16 < 16 by omega), number]
  have plain : ('\\' : Char) ≠ '"' ∧ ¬('\\' : Char).toNat < 32 := by decide
  -- a control character is not half of a pair
  have whole : ¬(0xD800 ≤ c.toNat ∧ c.toNat < 0xE000) := by omega
  simp only [List.cons_append, List.nil_append, pieces, plain.1, plain.2, if_false, if_true, four,
    Option.bind_eq_bind, Option.bind_some, whole, Char.ofNat_toNat]
  cases pieces fuel rest <;> rfl

/-- A character stands for itself, or it is written with a letter or its number behind a
backslash. -/
theorem escapeChar_cases (c : Char) :
    (escapeChar c = [c] ∧ c ≠ '"' ∧ c ≠ '\\' ∧ 32 ≤ c.toNat) ∨
    (∃ e, escapeChar c = ['\\', e] ∧ shortEscape? e = some c) ∨
    (escapeChar c = ['\\', 'u', '0', '0', Text.digitChar (c.toNat / 16),
      Text.digitChar (c.toNat % 16)] ∧ c.toNat < 32) := by
  have numbered (n : Nat) (same : c.toNat = n) : Char.ofNat n = c := by
    rw [← same, Char.ofNat_toNat]
  unfold escapeChar
  by_cases quote : c = '"'
  · exact .inr (.inl ⟨'"', if_pos quote, by rw [quote]; rfl⟩)
  by_cases slash : c = '\\'
  · rw [if_neg quote, if_pos slash]
    exact .inr (.inl ⟨'\\', rfl, by rw [slash]; rfl⟩)
  by_cases line : c = '\n'
  · rw [if_neg quote, if_neg slash, if_pos line]
    exact .inr (.inl ⟨'n', rfl, by rw [line]; rfl⟩)
  rw [if_neg quote, if_neg slash, if_neg line]
  by_cases ret : c = '\r'
  · rw [if_pos ret]
    exact .inr (.inl ⟨'r', rfl, by rw [ret]; rfl⟩)
  by_cases tab : c = '\t'
  · rw [if_neg ret, if_pos tab]
    exact .inr (.inl ⟨'t', rfl, by rw [tab]; rfl⟩)
  rw [if_neg ret, if_neg tab]
  by_cases back : c.toNat = 8
  · rw [if_pos back]
    exact .inr (.inl ⟨'b', rfl, congrArg some (numbered 8 back)⟩)
  by_cases feed : c.toNat = 12
  · rw [if_neg back, if_pos feed]
    exact .inr (.inl ⟨'f', rfl, congrArg some (numbered 12 feed)⟩)
  rw [if_neg back, if_neg feed]
  by_cases small : c.toNat < 32
  · exact .inr (.inr ⟨if_pos small, small⟩)
  · exact .inl ⟨if_neg small, quote, slash, Nat.not_lt.mp small⟩

/-- A character inside quotation marks is read as one piece. -/
theorem pieces_escapeChar (c : Char) (fuel : Nat) (rest : List Char) :
    pieces (fuel + 1) (escapeChar c ++ rest) =
      (pieces fuel rest).map fun (units, rest) => (.char c :: units, rest) := by
  rcases escapeChar_cases c with ⟨same, quote, slash, printed⟩ | ⟨e, same, known⟩ | ⟨same, small⟩
  · rw [same]
    exact pieces_plain c quote slash printed fuel rest
  · rw [same]
    exact pieces_short c e known fuel rest
  · rw [same]
    exact pieces_numbered c small fuel rest

theorem pieces_escaped (chars : List Char) (fuel : Nat) (enough : chars.length < fuel)
    (rest : List Char) : pieces fuel (chars.flatMap escapeChar ++ '"' :: rest) =
      some (chars.map .char, rest) := by
  induction chars generalizing fuel with
  | nil =>
    obtain ⟨fuel, rfl⟩ := Nat.exists_eq_add_of_lt enough
    simp [pieces]
  | cons c chars ih =>
    obtain ⟨fuel, rfl⟩ := Nat.exists_eq_add_of_lt enough
    rw [List.flatMap_cons, List.append_assoc, pieces_escapeChar,
      ih _ (by rw [List.length_cons]; omega)]
    rfl

theorem assemble_chars (chars : List Char) : assemble (chars.map .char) = some chars := by
  induction chars with
  | nil => rfl
  | cons c chars ih => rw [List.map_cons, assemble, ih, Option.map_some]

theorem length_le_escaped (chars : List Char) :
    chars.length ≤ (chars.flatMap escapeChar).length := by
  induction chars with
  | nil => exact Nat.le_refl 0
  | cons c chars ih =>
    have positive : 1 ≤ (escapeChar c).length := by
      rcases escapeChar_cases c with ⟨same, -⟩ | ⟨e, same, -⟩ | ⟨same, -⟩ <;> simp [same]
    rw [List.length_cons, List.flatMap_cons, List.length_append]
    omega

/-- A string reads back as it is written. -/
theorem stringTail_quoted (s : String) (rest : List Char) :
    stringTail (s.toList.flatMap escapeChar ++ '"' :: rest) = some (some s, rest) := by
  have short := length_le_escaped s.toList
  have read := pieces_escaped s.toList ((s.toList.flatMap escapeChar ++ '"' :: rest).length + 1)
    (by rw [List.length_append]; omega) rest
  rw [stringTail, read]
  simp [assemble_chars]

/-- Text that does not go on with a number that stands before it. -/
def EndsNumber (s : List Char) : Prop := s = [] ∨ s.head? = some ',' ∨ s.head? = some '\n'

theorem EndsNumber.cases (s : List Char) (ends : EndsNumber s) :
    s = [] ∨
      ∃ c rest, s = c :: rest ∧ Text.isDigitOf 10 c = false ∧ c ≠ '.' ∧ c ≠ 'e' ∧ c ≠ 'E' := by
  refine ends.imp id fun begins => ?_
  cases s with
  | nil => simp at begins
  | cons c rest =>
    rcases begins with same | same
    · cases same
      exact ⟨',', rest, rfl, by decide⟩
    · cases same
      exact ⟨'\n', rest, rfl, by decide⟩

theorem numberTail_of_ends (s : List Char) (ends : EndsNumber s) :
    numberTail s = some (false, s) := by
  rcases ends.cases with rfl | ⟨c, rest, rfl, -, point, small, large⟩
  · rfl
  · unfold numberTail
    split
    next same =>
      cases same
      exact absurd rfl point
    next => simp [small, large]

/-- A whole number reads back as it is written. -/
theorem number_written (i : Int) (rest : List Char) (ends : EndsNumber rest) :
    number ((Text.decimalInt i).toList ++ rest) = some (.whole i, rest) := by
  obtain ⟨c, more, written, zero⟩ := @Text.numeral_head 10 (by omega) (by omega) i.natAbs
  have all := @Text.isDigitOf_of_mem_numeral 10 (by omega) (by omega) i.natAbs
  have read :
      digits (Text.numeral 10 i.natAbs ++ rest) = some (Text.numeral 10 i.natAbs, rest) := by
    have stop : rest.takeWhile (Text.isDigitOf 10) = [] ∧
        rest.dropWhile (Text.isDigitOf 10) = rest := by
      rcases ends.cases with rfl | ⟨c, rest, rfl, other, -⟩
      · exact ⟨rfl, rfl⟩
      · simp [other]
    rw [digits, List.takeWhile_append_of_pos all, List.dropWhile_append_of_pos all, stop.1, stop.2,
      List.append_nil, written]
  have value := Text.numberOf_numeral 10 i.natAbs (by omega) (by omega)
  have tail := numberTail_of_ends rest ends
  -- the reader refuses a zero that is not all of the number
  have head :
      ¬((Text.numeral 10 i.natAbs).head? = some '0' ∧ Text.numeral 10 i.natAbs ≠ ['0']) := by
    rintro ⟨leading, longer⟩
    rw [written, List.head?_cons, Option.some.injEq] at leading
    rw [written, leading, (zero leading).2] at longer
    exact longer rfl
  have digit : c ≠ '-' := by
    rintro rfl
    have listed := all '-' (by simp [written])
    exact absurd listed (by decide)
  unfold Text.decimalInt Text.decimal
  split
  next negative =>
    have chars : ("-" ++ String.ofList (Text.numeral 10 i.natAbs)).toList ++ rest =
        '-' :: (Text.numeral 10 i.natAbs ++ rest) := by simp
    rw [chars]
    simp only [number, read, tail, value, Option.bind_eq_bind, Option.bind_some, head, if_false]
    have nonzero : ¬(i.natAbs = 0) := by omega
    have same : -(i.natAbs : Int) = i := by omega
    simp only [nonzero, decide_false, Bool.and_false, Bool.or_self, Bool.false_eq_true, if_false,
      if_true, same]
  next positive =>
    have chars : (String.ofList (Text.numeral 10 i.natAbs)).toList ++ rest =
        Text.numeral 10 i.natAbs ++ rest := by simp
    have free (more : List Char) : Text.numeral 10 i.natAbs ++ rest ≠ '-' :: more := by
      rw [written]
      exact fun same => digit (List.cons.inj same).1
    have same : (i.natAbs : Int) = i := by omega
    rw [chars, number]
    · simp only [read, tail, value, Option.bind_eq_bind, Option.bind_some, head, if_false]
      simp only [Bool.false_and, Bool.or_self, Bool.false_eq_true, if_false, same]
    · exact free

end Json

end Workbench
