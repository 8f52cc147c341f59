import Workbench.Proofs.Text.Numeral
import Workbench.Proofs.Toml.Quoted
import Workbench.Toml.Reader

/-! Texts, whole numbers, truth values and lists of them read back as they are written. -/
namespace Workbench.Toml

/-- Text that ends the value before it. -/
def EndsValue (s : List Char) : Prop :=
  s.head? = some '\n' ∨ s.head? = some ',' ∨ s.head? = some ']'

namespace EndsValue

variable {s : List Char}

theorem exists_cons (ends : EndsValue s) :
    ∃ c rest, s = c :: rest ∧ (c = '\n' ∨ c = ',' ∨ c = ']') := by
  cases s with
  | nil => simp [EndsValue] at ends
  | cons c rest => exact ⟨c, rest, rfl, by simpa [EndsValue] using ends⟩

theorem head_ne (ends : EndsValue s) (other : Char)
    (apart : other ≠ '\n' ∧ other ≠ ',' ∧ other ≠ ']') : s.head? ≠ some other := by
  rcases ends with same | same | same <;> rw [same] <;>
    simp [apart.1.symm, apart.2.1.symm, apart.2.2.symm]

theorem endsQuote (ends : EndsValue s) : EndsQuote s :=
  ⟨ends.head_ne '"' (by decide), ends.head_ne '\'' (by decide)⟩

end EndsValue

/-! ### Numbers -/

section Number

variable {ds s rest : List Char} (all : ∀ d ∈ ds, Text.isDigitOf 10 d = true)
  (ends : EndsValue rest)

theorem moreDigits_cons (base : Nat) (d : Char) (digit : Text.isDigitOf base d = true)
    (s : List Char) :
    moreDigits base (d :: s) = (moreDigits base s).map fun (ds, rest) => (d :: ds, rest) := by
  rw [moreDigits.eq_def]
  -- an underscore is no digit
  split
  next empty => cases empty
  next same =>
    cases same
    cases digit
  next same =>
    cases same
    rw [if_pos digit]

include all ends

theorem moreDigits_append : moreDigits 10 (ds ++ rest) = some (ds, rest) := by
  induction ds with
  | nil =>
    obtain ⟨c, more, rfl, same⟩ := ends.exists_cons
    rcases same with rfl | rfl | rfl <;> rfl
  | cons d ds ih =>
    rw [List.cons_append, moreDigits_cons 10 d (all d List.mem_cons_self),
      ih fun d listed => all d (List.mem_cons_of_mem _ listed)]
    rfl

/-- A mark that is no digit is not found behind some digits. -/
theorem mark_digits (m : Char) (apart : Text.isDigitOf 10 m = false)
    (other : m ≠ '\n' ∧ m ≠ ',' ∧ m ≠ ']') : mark m (ds ++ rest) = none := by
  cases ds with
  | nil =>
    obtain ⟨c, more, rfl, -⟩ := ends.exists_cons
    have different := ends.head_ne m other
    rw [List.head?_cons, ne_eq, Option.some.injEq] at different
    rw [List.nil_append, mark, if_neg different]
  | cons d ds =>
    have different : d ≠ m := by
      rintro rfl
      rw [all d List.mem_cons_self] at apart
      cases apart
    rw [List.cons_append, mark, if_neg different]

omit all in
/-- A field of digits is taken off the front of the digits. -/
theorem field_digits (width low high n : Nat) (left : List Char)
    (read : field width low high (ds ++ rest) = some (n, left)) :
    left = ds.drop width ++ rest := by
  obtain ⟨c, more, rfl, same⟩ := ends.exists_cons
  simp only [field] at read
  -- the field was read, so that it holds digits only
  split at read
  next fits =>
    cases read
    obtain ⟨-, digits, -⟩ := fits
    have within : width ≤ ds.length := by
      refine Nat.le_of_not_lt fun beyond => ?_
      -- else what ends the number would be among the digits
      have listed : c ∈ (ds ++ c :: more).take width := by
        rw [List.take_append, List.mem_append]
        obtain ⟨k, longer⟩ := Nat.exists_eq_add_of_lt beyond
        exact .inr (by simp [longer, Nat.add_assoc])
      have digit := List.all_eq_true.mp digits c listed
      rcases same with rfl | rfl | rfl <;> cases digit
    rw [List.drop_append_of_le_length within]
  next => cases read

theorem afterMoment?_digits : afterMoment? (ds ++ rest) = none := by
  have later (width : Nat) : ∀ d ∈ ds.drop width, Text.isDigitOf 10 d = true :=
    fun d listed => all d (List.mem_of_mem_drop listed)
  -- behind the first field of a date or a time stands a mark, which is missing here
  have date : afterDate? (ds ++ rest) = none := by
    rw [afterDate?]
    cases read : field 4 0 9999 (ds ++ rest) with
    | none => rfl
    | some found =>
      obtain ⟨n, left⟩ := found
      have left := field_digits ends 4 0 9999 n left read
      simp only [left, Option.bind_eq_bind, Option.bind_some,
        mark_digits (later 4) ends '-' rfl (by decide), Option.bind_none]
  have time : afterTime? (ds ++ rest) = none := by
    rw [afterTime?]
    cases read : field 2 0 23 (ds ++ rest) with
    | none => rfl
    | some found =>
      obtain ⟨n, left⟩ := found
      have left := field_digits ends 2 0 23 n left read
      simp only [left, Option.bind_eq_bind, Option.bind_some,
        mark_digits (later 2) ends ':' rfl (by decide), Option.bind_none]
  rw [afterMoment?, date]
  exact time

omit all

theorem fraction?_of_ends : fraction? rest = some (none, rest) := by
  obtain ⟨c, more, rfl, same⟩ := ends.exists_cons
  rcases same with rfl | rfl | rfl <;> rfl

theorem exponent?_of_ends : exponent? rest = some (none, rest) := by
  obtain ⟨c, more, rfl, same⟩ := ends.exists_cons
  rcases same with rfl | rfl | rfl <;> rfl

theorem plainDigits_numeral (n : Nat) :
    plainDigits (Text.numeral 10 n ++ rest) = some (Text.numeral 10 n, rest) := by
  obtain ⟨c, more, written, zero⟩ := @Text.numeral_head 10 (by omega) (by omega) n
  have all := @Text.isDigitOf_of_mem_numeral 10 (by omega) (by omega) n
  rw [written] at all ⊢
  rw [List.cons_append]
  by_cases leading : c = '0'
  · -- only the number zero begins so, and the reader stops behind it
    rw [leading, (zero leading).2]
    rfl
  · rw [plainDigits]
    · rw [digits, if_pos (all c List.mem_cons_self),
        moreDigits_append (fun d listed => all d (List.mem_cons_of_mem _ listed)) ends]
      rfl
    · intro s same
      exact leading (List.cons.inj same).1

/-- Behind its sign, a whole number is read up to what ends it. -/
theorem decimalNumber_numeral (s : List Char) (negative : Bool) (n : Nat)
    (signed : sign s = (negative, Text.numeral 10 n ++ rest)) :
    decimalNumber s = (whole? (if negative then -(n : Int) else n)).map (·, rest) := by
  obtain ⟨c, more, written, -⟩ := @Text.numeral_head 10 (by omega) (by omega) n
  have start : Text.StartsNumber c :=
    .inr (@Text.isDigitOf_of_mem_numeral 10 (by omega) (by omega) n c (by simp [written]))
  have named : ("inf".toList.isPrefixOf (Text.numeral 10 n ++ rest) ||
      "nan".toList.isPrefixOf (Text.numeral 10 n ++ rest)) = false := by
    have first := start.ne 'i' (by decide)
    have second := start.ne 'n' (by decide)
    simp [written, List.isPrefixOf, first.symm, second.symm]
  simp only [decimalNumber, signed, named, plainDigits_numeral ends, fraction?_of_ends ends,
    exponent?_of_ends ends, Text.numberOf_numeral 10 n (by omega) (by omega), Option.bind_eq_bind,
    Option.bind_some, Bool.false_eq_true, if_false, Option.isNone_none, Bool.and_self, if_true]
  cases whole? (if negative then -(n : Int) else n) <;> rfl

omit ends in
theorem number_of_plain (s : List Char)
    (apart : ∀ c more, s = '0' :: c :: more → c ≠ 'x' ∧ c ≠ 'o' ∧ c ≠ 'b') :
    number s = decimalNumber s := by
  unfold number
  split
  next => exact absurd rfl (apart _ _ rfl).1
  next => exact absurd rfl (apart _ _ rfl).2.1
  next => exact absurd rfl (apart _ _ rfl).2.2
  next => rfl

/-- A whole number of 64 bits reads back as it is written. -/
theorem number_written (i : Int) (fits : Int64.minValue.toInt ≤ i ∧ i ≤ Int64.maxValue.toInt) :
    number ((Text.decimalInt i).toList ++ rest) = some (.whole i, rest) := by
  have kept : whole? i = some (.whole i) := if_pos fits
  unfold Text.decimalInt Text.decimal
  split
  next negative =>
    have chars : ("-" ++ String.ofList (Text.numeral 10 i.natAbs)).toList ++ rest =
        '-' :: (Text.numeral 10 i.natAbs ++ rest) := by simp
    have same : -(i.natAbs : Int) = i := by omega
    rw [chars, number_of_plain _ (by simp), decimalNumber_numeral ends _ true i.natAbs rfl,
      if_pos rfl, same, kept]
    rfl
  next positive =>
    have chars : (String.ofList (Text.numeral 10 i.natAbs)).toList ++ rest =
        Text.numeral 10 i.natAbs ++ rest := by simp
    have same : (i.natAbs : Int) = i := by omega
    obtain ⟨c, more, written, zero⟩ := @Text.numeral_head 10 (by omega) (by omega) i.natAbs
    have digit :=
      @Text.isDigitOf_of_mem_numeral 10 (by omega) (by omega) i.natAbs c (by simp [written])
    have unsigned : sign (Text.numeral 10 i.natAbs ++ rest) =
        (false, Text.numeral 10 i.natAbs ++ rest) := by
      rw [written, List.cons_append]
      unfold sign
      split
      next same =>
        cases same
        cases digit
      next same =>
        cases same
        cases digit
      next => rfl
    have plain : ∀ c more, Text.numeral 10 i.natAbs ++ rest = '0' :: c :: more →
        c ≠ 'x' ∧ c ≠ 'o' ∧ c ≠ 'b' := by
      intro d left same
      rw [written, List.cons_append] at same
      obtain ⟨leading, same⟩ := List.cons.inj same
      rw [(zero leading).2, List.nil_append] at same
      -- behind a leading zero stands what ends the number
      have next (other : Char) (apart : other ≠ '\n' ∧ other ≠ ',' ∧ other ≠ ']') : d ≠ other := by
        simpa [same] using ends.head_ne other apart
      exact ⟨next 'x' (by decide), next 'o' (by decide), next 'b' (by decide)⟩
    rw [chars, number_of_plain _ plain, decimalNumber_numeral ends _ false i.natAbs unsigned,
      if_neg (by decide), same, kept]
    rfl

end Number

/-! ### Values -/

mutual

/-- Whether a value is of a kind whose text tells all of it, on its line or over several. -/
def isTold : Toml → Bool
  | .text _ | .bool _ => true
  | .whole i => Int64.minValue.toInt ≤ i && i ≤ Int64.maxValue.toInt
  | .list items => itemsTold items
  | .real | .moment | .table _ => false

def itemsTold : List Toml → Bool
  | [] => true
  | item :: rest => item.isTold && itemsTold rest

end

mutual

/-- How deep lists stand in one another. -/
def depth : Toml → Nat
  | .list items => itemsDepth items + 1
  | _ => 0

def itemsDepth : List Toml → Nat
  | [] => 0
  | item :: rest => max item.depth (itemsDepth rest)

end

/-- A character with which neither white space nor a comment begins. -/
structure IsInk (c : Char) : Prop where
  solid : isSpace c = false
  level : c ≠ '\n' ∧ c ≠ '\r'
  uncommented : c ≠ '#'

theorem isInk_of_startsNumber (c : Char) (start : Text.StartsNumber c) : IsInk c where
  solid := by simp [isSpace, start.ne ' ' (by decide), start.ne '\t' (by decide)]
  level := ⟨start.ne _ (by decide), start.ne _ (by decide)⟩
  uncommented := start.ne _ (by decide)

theorem chars_text (s : String) : chars (.text s) = quote s := chars.eq_def _

theorem chars_whole (i : Int) : chars (.whole i) = (Text.decimalInt i).toList := chars.eq_def _

theorem chars_true : chars (.bool true) = "true".toList := chars.eq_def _

theorem chars_false : chars (.bool false) = "false".toList := chars.eq_def _

theorem chars_empty : chars (.list []) = "[]".toList := chars.eq_def _

theorem chars_single (item : Toml) : chars (.list [item]) = '[' :: chars item ++ [']'] :=
  chars.eq_def _

theorem chars_lines (item next : Toml) (rest : List Toml) : chars (.list (item :: next :: rest)) =
    '[' :: lineChars (item :: next :: rest) ++ "\n]".toList := chars.eq_def _

theorem lineChars_nil : lineChars [] = [] := lineChars.eq_def _

theorem lineChars_cons (item : Toml) (rest : List Toml) : lineChars (item :: rest) =
    "\n    ".toList ++ chars item ++ ',' :: lineChars rest := lineChars.eq_def _

theorem quote_head (s : String) : ∃ c rest, quote s = c :: rest ∧ (c = '"' ∨ c = '\'') := by
  cases form : QuoteForm.choose s.toList with
  | line => exact ⟨'"', escaped false 0 s.toList ++ ['"'], by simp [quote, form], .inl rfl⟩
  | raw => exact ⟨'\'', s.toList ++ ['\''], by simp [quote, form], .inr rfl⟩
  | block =>
    exact ⟨'"', "\"\"\n".toList ++ escaped true 0 s.toList ++ "\"\"\"".toList,
      by simp [quote, form], .inl rfl⟩
  | rawBlock =>
    exact ⟨'\'', "''\n".toList ++ s.toList ++ "'''".toList, by simp [quote, form], .inr rfl⟩

theorem chars_head (v : Toml) (told : v.isTold = true) :
    ∃ c rest, chars v = c :: rest ∧ IsInk c ∧ c ≠ ']' := by
  cases v with
  | text s =>
    obtain ⟨c, rest, same, mark⟩ := quote_head s
    refine ⟨c, rest, (chars_text s).trans same, ?_⟩
    rcases mark with rfl | rfl <;> exact ⟨⟨by decide, by decide, by decide⟩, by decide⟩
  | whole i =>
    obtain ⟨c, rest, same, start⟩ := Text.decimalInt_head i
    exact ⟨c, rest, (chars_whole i).trans same, isInk_of_startsNumber c start,
      start.ne _ (by decide)⟩
  | bool b =>
    cases b with
    | true => exact ⟨'t', "rue".toList, chars_true, ⟨by decide, by decide, by decide⟩, by decide⟩
    | false => exact ⟨'f', "alse".toList, chars_false, ⟨by decide, by decide, by decide⟩, by decide⟩
  | list items =>
    have bracket : IsInk '[' ∧ '[' ≠ ']' := ⟨⟨by decide, by decide, by decide⟩, by decide⟩
    match items with
    | [] => exact ⟨'[', [']'], chars_empty, bracket⟩
    | [item] => exact ⟨'[', _, chars_single item, bracket⟩
    | item :: next :: rest => exact ⟨'[', _, chars_lines item next rest, bracket⟩
  | real => cases told
  | moment => cases told
  | table => cases told

theorem skipLines_of_ink (c : Char) (rest : List Char) (ink : IsInk c) :
    skipLines (c :: rest) = c :: rest := by
  unfold skipLines
  split
  next same => exact absurd (List.cons.inj same).1 ink.level.2
  next same =>
    cases same
    simp [ink.solid, ink.level.1, ink.uncommented]
  next same => cases same

theorem skipLines_blank (c : Char) (rest : List Char) (blank : c = '\n' ∨ c = ' ') :
    skipLines (c :: rest) = skipLines rest := by
  rw [skipLines]
  · rcases blank with rfl | rfl <;> rfl
  · rintro more rfl
    rcases blank with same | same <;> cases same

theorem skipLines_indent (s : List Char) : skipLines ("\n    ".toList ++ s) = skipLines s := by
  have indent : "\n    ".toList ++ s = '\n' :: ' ' :: ' ' :: ' ' :: ' ' :: s := by simp
  rw [indent, skipLines_blank _ _ (.inl rfl)]
  simp only [skipLines_blank ' ' _ (.inr rfl)]

/-- A value reads back, whatever follows, if that ends it. -/
def ReadsBack (v : Toml) : Prop :=
  ∀ fuel room rest, EndsValue rest → (chars v).length ≤ fuel → v.depth ≤ room →
    value fuel room (chars v ++ rest) = some (v, rest)

theorem scalar_text (s : String) (rest : List Char) (ends : EndsValue rest) :
    scalar (quote s ++ rest) = some (.text s, rest) := by
  have read := quoted_quote s rest ends.endsQuote
  obtain ⟨c, more, same, mark⟩ := quote_head s
  rw [same, List.cons_append] at read ⊢
  rcases mark with rfl | rfl
  · rw [scalar, read]
    rfl
  · rw [scalar, read]
    rfl

theorem scalar_word (w : String) (v : Toml) (rest : List Char) :
    word w v (w.toList ++ rest) = some (v, rest) := by
  have taken : w.toList.isPrefixOf (w.toList ++ rest) = true :=
    List.isPrefixOf_iff_prefix.mpr (List.prefix_append _ _)
  rw [word, if_pos taken, ← String.length_toList, List.drop_left]

/-- No date and no time is written like a whole number. -/
theorem afterMoment?_decimalInt (i : Int) (rest : List Char) (ends : EndsValue rest) :
    afterMoment? ((Text.decimalInt i).toList ++ rest) = none := by
  unfold Text.decimalInt Text.decimal
  split
  next negative =>
    have minus : Text.isDigitOf 10 '-' = false := rfl
    simp [afterMoment?, afterDate?, afterTime?, field, minus]
  next positive =>
    rw [String.toList_ofList]
    exact afterMoment?_digits (Text.isDigitOf_of_mem_numeral (by omega) (by omega) i.natAbs) ends

theorem scalar_whole (i : Int) (fits : Int64.minValue.toInt ≤ i ∧ i ≤ Int64.maxValue.toInt)
    (rest : List Char) (ends : EndsValue rest) :
    scalar ((Text.decimalInt i).toList ++ rest) = some (.whole i, rest) := by
  have moment := afterMoment?_decimalInt i rest ends
  have read := number_written ends i fits
  obtain ⟨c, more, same, start⟩ := Text.decimalInt_head i
  rw [same, List.cons_append] at moment read ⊢
  -- no other kind of value begins with a sign or a digit
  have other (d : Char) (apart : d ≠ '-' ∧ Text.isDigitOf 10 d = false) (left : List Char) :
      c :: (more ++ rest) ≠ d :: left := fun same => start.ne d apart (List.cons.inj same).1
  unfold scalar
  split
  next same => exact absurd same (other '"' (by decide) _)
  next same => exact absurd same (other '\'' (by decide) _)
  next same => exact absurd same (other 't' (by decide) _)
  next same => exact absurd same (other 'f' (by decide) _)
  next same => exact absurd same (other 'i' (by decide) _)
  next same => exact absurd same (other 'n' (by decide) _)
  next => rw [moment, read]

theorem value_scalar (fuel room : Nat) (c : Char) (s : List Char) (list : c ≠ '[')
    (table : c ≠ '\x7b') : value (fuel + 1) room (c :: s) = scalar (c :: s) := by
  rw [value]
  · rintro rest same
    exact list (List.cons.inj same).1
  · rintro rest same
    exact table (List.cons.inj same).1

theorem value_list (fuel room : Nat) (s : List Char) :
    value (fuel + 1) (room + 1) ('[' :: s) =
      (items fuel room s).map fun (vs, rest) => (.list vs, rest) := by
  rw [value]

theorem skipLines_chars (v : Toml) (told : v.isTold = true) (rest : List Char) :
    skipLines (chars v ++ rest) = chars v ++ rest := by
  obtain ⟨c, more, same, ink, -⟩ := chars_head v told
  rw [same, List.cons_append]
  exact skipLines_of_ink c _ ink

/-- The first item of a list is read up to what stands behind it. -/
theorem items_cons (item : Toml) (told : item.isTold = true) (fuel room : Nat)
    (s left : List Char) (front : skipLines s = chars item ++ left)
    (read : value fuel room (chars item ++ left) = some (item, left)) :
    items (fuel + 1) room s = match skipLines left with
      | ',' :: rest => (items fuel room rest).map fun (vs, rest) => (item :: vs, rest)
      | ']' :: rest => some ([item], rest)
      | _ => none := by
  obtain ⟨c, more, same, -, apart⟩ := chars_head item told
  rw [same, List.cons_append] at front read
  rw [items, front]
  split
  next closed => exact absurd (List.cons.inj closed).1 apart
  next =>
    rw [read]
    rfl

/-- What is left of a value reads back in one step. -/
theorem readsBack_of (v : Toml) (told : v.isTold = true) (read : ∀ fuel room rest, EndsValue rest →
      (chars v).length ≤ fuel + 1 → v.depth ≤ room →
        value (fuel + 1) room (chars v ++ rest) = some (v, rest)) : ReadsBack v := by
  intro fuel room rest ends enough deep
  -- no value is written as nothing, so that there is a step to spend
  obtain ⟨c, more, head, -⟩ := chars_head v told
  have positive : 1 ≤ fuel := by
    rw [head, List.length_cons] at enough
    omega
  obtain ⟨fuel, rfl⟩ := Nat.exists_eq_add_of_le' positive
  exact read fuel room rest ends enough deep

/-- What is left of a list reads back in one step as well, inside of the list. -/
theorem readsBack_list (list : List Toml) (told : itemsTold list = true) (front : List Char)
    (same : chars (.list list) = '[' :: front)
    (read : ∀ fuel room rest, front.length ≤ fuel → itemsDepth list ≤ room →
      items fuel room (front ++ rest) = some (list, rest)) : ReadsBack (.list list) := by
  refine readsBack_of _ told fun fuel room rest _ enough deep => ?_
  rw [depth] at deep
  obtain ⟨room, rfl⟩ := Nat.exists_eq_add_of_le' (Nat.one_le_of_lt deep)
  rw [same, List.length_cons] at enough
  rw [same, List.cons_append, value_list, read fuel room rest (by omega) (by omega)]
  rfl

theorem skipLines_close (rest : List Char) : skipLines (']' :: rest) = ']' :: rest :=
  skipLines_of_ink ']' rest ⟨by decide, by decide, by decide⟩

theorem items_close (fuel room : Nat) (s rest : List Char) (closed : skipLines s = ']' :: rest) :
    items (fuel + 1) room s = some ([], rest) := by
  rw [items, closed]
  rfl

theorem readsBack_text (s : String) (told : (text s).isTold = true) : ReadsBack (.text s) := by
  refine readsBack_of _ told fun fuel room rest ends _ _ => ?_
  have read := scalar_text s rest ends
  obtain ⟨c, more, same, mark⟩ := quote_head s
  rw [same, List.cons_append] at read
  rw [chars_text, same, List.cons_append, value_scalar, read]
  · rcases mark with rfl | rfl <;> decide
  · rcases mark with rfl | rfl <;> decide

theorem readsBack_whole (i : Int) (told : (whole i).isTold = true) : ReadsBack (.whole i) := by
  refine readsBack_of _ told fun fuel room rest ends _ _ => ?_
  simp only [isTold, Bool.and_eq_true, decide_eq_true_eq] at told
  have read := scalar_whole i told rest ends
  obtain ⟨c, more, same, start⟩ := Text.decimalInt_head i
  rw [same, List.cons_append] at read
  rw [chars_whole, same, List.cons_append, value_scalar, read]
  · exact start.ne _ (by decide)
  · exact start.ne _ (by decide)

theorem readsBack_bool (b : Bool) : ReadsBack (.bool b) := by
  refine readsBack_of _ rfl fun fuel room rest _ _ _ => ?_
  cases b with
  | true =>
    rw [chars_true]
    exact (value_scalar fuel room 't' _ (by decide) (by decide)).trans (scalar_word "true" _ rest)
  | false =>
    rw [chars_false]
    exact (value_scalar fuel room 'f' _ (by decide) (by decide)).trans (scalar_word "false" _ rest)

theorem readsBack_empty : ReadsBack (.list []) := by
  refine readsBack_list [] rfl [']'] chars_empty fun fuel room rest enough _ => ?_
  obtain ⟨fuel, rfl⟩ := Nat.exists_eq_add_of_le' enough
  exact items_close fuel room _ rest (skipLines_close rest)

/-- A list of one item stands on one line, without a comma. -/
theorem readsBack_single (item : Toml) (told : item.isTold = true) (back : ReadsBack item) :
    ReadsBack (.list [item]) := by
  refine readsBack_list [item] (by simp [itemsTold, told]) (chars item ++ [']'])
    (chars_single item) fun fuel room rest enough deep => ?_
  rw [List.length_append, List.length_singleton] at enough
  rw [itemsDepth, itemsDepth] at deep
  obtain ⟨fuel, rfl⟩ := Nat.exists_eq_add_of_le' (Nat.le_of_add_left_le enough)
  have first := back fuel room (']' :: rest) (.inr (.inr rfl)) (by omega) (by omega)
  rw [List.append_assoc, List.singleton_append,
    items_cons item told fuel room _ (']' :: rest) (skipLines_chars item told _) first,
    skipLines_close]
  rfl

/-- Items that stand on lines of their own read back up to the end of the list. -/
def LinesReadBack (list : List Toml) : Prop :=
  ∀ fuel room rest, (lineChars list).length < fuel → itemsDepth list ≤ room →
    items fuel room (lineChars list ++ '\n' :: ']' :: rest) = some (list, rest)

theorem readsBack_lines (item next : Toml) (more : List Toml)
    (told : itemsTold (item :: next :: more) = true) (back : LinesReadBack (item :: next :: more)) :
    ReadsBack (.list (item :: next :: more)) := by
  refine readsBack_list _ told (lineChars (item :: next :: more) ++ "\n]".toList)
    (chars_lines item next more) fun fuel room rest enough deep => ?_
  have closing : "\n]".toList.length = 2 := rfl
  rw [List.length_append, closing] at enough
  rw [List.append_assoc]
  exact back fuel room rest (by omega) deep

theorem linesReadBack_nil : LinesReadBack [] := by
  intro fuel room rest enough _
  obtain ⟨fuel, rfl⟩ := Nat.exists_eq_add_of_le' (Nat.one_le_of_lt enough)
  rw [lineChars_nil, List.nil_append]
  refine items_close fuel room _ rest ?_
  rw [skipLines_blank _ _ (.inl rfl), skipLines_close]

theorem linesReadBack_cons (item : Toml) (list : List Toml) (told : item.isTold = true)
    (back : ReadsBack item) (others : LinesReadBack list) : LinesReadBack (item :: list) := by
  intro fuel room rest enough deep
  obtain ⟨fuel, rfl⟩ := Nat.exists_eq_add_of_le' (Nat.one_le_of_lt enough)
  rw [itemsDepth] at deep
  simp only [lineChars_cons, List.length_append, List.length_cons] at enough
  have text : lineChars (item :: list) ++ '\n' :: ']' :: rest = "\n    ".toList ++
      (chars item ++ ',' :: (lineChars list ++ '\n' :: ']' :: rest)) := by
    simp [lineChars_cons]
  -- each item stands on a line of its own and has a comma behind it, the last one too
  have first := back fuel room (',' :: (lineChars list ++ '\n' :: ']' :: rest))
    (.inr (.inl rfl)) (by omega) (by omega)
  have later := others fuel room rest (by omega) (by omega)
  have comma := skipLines_of_ink ',' (lineChars list ++ '\n' :: ']' :: rest)
    ⟨by decide, by decide, by decide⟩
  rw [text, items_cons item told fuel room _ _ _ first, comma]
  · exact congrArg (Option.map fun (vs, rest) => (item :: vs, rest)) later
  · rw [skipLines_indent, skipLines_chars item told]

mutual

/-- A value whose text tells all of it reads back. -/
theorem readsBack (v : Toml) (told : v.isTold = true) : ReadsBack v := by
  match v with
  | .text s => exact readsBack_text s told
  | .whole i => exact readsBack_whole i told
  | .bool b => exact readsBack_bool b
  | .list [] => exact readsBack_empty
  | .list [item] =>
    simp only [isTold, itemsTold, Bool.and_true] at told
    exact readsBack_single item told (readsBack item told)
  | .list (item :: next :: more) =>
    exact readsBack_lines item next more told (linesReadBack (item :: next :: more) told)
  | .real => cases told
  | .moment => cases told
  | .table _ => cases told

theorem linesReadBack (list : List Toml) (told : itemsTold list = true) : LinesReadBack list := by
  match list with
  | [] => exact linesReadBack_nil
  | item :: list =>
    simp only [itemsTold, Bool.and_eq_true] at told
    exact linesReadBack_cons item list told.1 (readsBack item told.1) (linesReadBack list told.2)

end

end Workbench.Toml
