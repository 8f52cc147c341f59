import Mathlib.Data.List.Infix
import Mathlib.Data.List.TakeWhile
import Workbench.Address.Reader
import Workbench.Proofs.Text.Numeral
import Workbench.Proofs.Text.Split

/-! The address of a host is read back from its text. A number is read up to the first character that
is no digit, so four bytes and a group can be told apart by what comes behind the first number; the
groups before the gap and those behind it are read by induction on them, and the gap is a run of zeros
of just the length that the reader fills in. A socket address is read back as well, with a host of the
second family in brackets. Without them it is not read: a group is neither a byte nor a bracket. -/
namespace Workbench.Address

open Text

/-- No digit of a base comes first. -/
def StopsDigits (base : Nat) (rest : List Char) : Prop :=
  ∀ c ∈ rest.head?, isDigitOf base c = false

theorem stopsDigits_nil (base : Nat) : StopsDigits base [] := by simp [StopsDigits]

theorem stopsDigits_cons {base : Nat} {c : Char} (stop : isDigitOf base c = false)
    (rest : List Char) : StopsDigits base (c :: rest) := by
  simpa [StopsDigits] using stop

theorem takeWhile_numeral {base : Nat} (two : 2 ≤ base) (sixteen : base ≤ 16) (n : Nat)
    {rest : List Char} (stops : StopsDigits base rest) :
    (numeral base n ++ rest).takeWhile (isDigitOf base) = numeral base n := by
  rw [List.takeWhile_append_of_pos (isDigitOf_of_mem_numeral two sixteen n)]
  cases rest with
  | nil => simp
  | cons c rest =>
    have stop := stops c rfl
    simp [stop]

/-- A number is read back if it is neither too wide nor too large. -/
theorem number_numeral {base : Nat} (two : 2 ≤ base) (sixteen : base ≤ 16) (width : Option Nat)
    (padded : Bool) (limit n : Nat) {rest : List Char} (stops : StopsDigits base rest)
    (narrow : ∀ w ∈ width, (numeral base n).length ≤ w) (small : n ≤ limit) :
    number base width padded limit (numeral base n ++ rest) = some (n, rest) := by
  obtain ⟨c, more, written, zero⟩ := numeral_head two sixteen n
  have nonempty : numeral base n ≠ [] := by simp [written]
  have narrow' : width.any (· < (numeral base n).length) = false := by
    cases width with
    | none => rfl
    | some w => simpa using narrow w rfl
  have bare : ((numeral base n).head? == some '0' && decide (1 < (numeral base n).length)) =
      false := by
    by_cases leading : c = '0'
    · simp [written, (zero leading).2]
    · simp [written, leading]
  simp only [number, takeWhile_numeral two sixteen n stops, numberOf_numeral base n two sixteen,
    narrow', Bool.and_assoc, bare, List.drop_left]
  simp [nonempty, small]

theorem number_of_stopsDigits {base : Nat} (width : Option Nat) (padded : Bool) (limit : Nat)
    {s : List Char} (stops : StopsDigits base s) : number base width padded limit s = none := by
  have empty : s.takeWhile (isDigitOf base) = [] := by
    cases s with
    | nil => rfl
    | cons c rest =>
      have stop := stops c rfl
      simp [stop]
  simp [number, empty]

/-- What is read as a number are digits at the front. -/
theorem digits_of_number {base : Nat} {width : Option Nat} {padded : Bool} {limit n : Nat}
    {s rest : List Char} (read : number base width padded limit s = some (n, rest)) :
    ∃ digits, s = digits ++ rest ∧ ∀ c ∈ digits, isDigitOf base c = true := by
  unfold number at read
  dsimp only at read
  split at read
  · cases read
  · cases read
    refine ⟨s.takeWhile (isDigitOf base), ?_, fun c => List.mem_takeWhile_imp⟩
    have begins := List.prefix_iff_eq_take.mp (List.takeWhile_prefix (isDigitOf base) (l := s))
    nth_rewrite 1 [begins]
    rw [List.take_append_drop]

theorem byte_numeral (b : UInt8) {rest : List Char} (stops : StopsDigits 10 rest) :
    byte (numeral 10 b.toNat ++ rest) = some (b, rest) := by
  have small : b.toNat < 256 := b.toNat_lt
  have narrow : (numeral 10 b.toNat).length ≤ 3 :=
    length_numeral_le (by omega) 3 _ (by omega) (by omega)
  rw [byte, number_numeral (by omega) (by omega) _ _ _ _ stops (by simpa using narrow) (by omega)]
  simp

theorem part_cons (sep : Char) {index : Nat} (later : index ≠ 0) {α : Type} (read : Reader α)
    (s : List Char) : part sep index read (sep :: s) = read s := by
  simp [part, later, mark]

/-- Four bytes are read back. -/
theorem fourBytes_dotted (a b c d : UInt8) {rest : List Char} (stops : StopsDigits 10 rest) :
    fourBytes (HostAddress.dotted [a, b, c, d] ++ rest) = some ((a, b, c, d), rest) := by
  have point (more : List Char) : StopsDigits 10 ('.' :: more) := stopsDigits_cons (by decide) more
  have text : HostAddress.dotted [a, b, c, d] ++ rest = numeral 10 a.toNat ++ '.' ::
      (numeral 10 b.toNat ++ '.' :: (numeral 10 c.toNat ++ '.' :: (numeral 10 d.toNat ++ rest))) := by
    simp [HostAddress.dotted, joinWith]
  simp [text, fourBytes, part_cons, byte_numeral, point, stops]

theorem mark_eq_some_iff (c : Char) (s rest : List Char) :
    mark c s = some ((), rest) ↔ s = c :: rest := by
  cases s with
  | nil => simp [mark]
  | cons x more =>
    rw [mark]
    split
    next same => simp [same]
    next other => simp [other]

/-- Four bytes begin with digits and a point. -/
theorem point_of_fourBytes {s : List Char} (read : (fourBytes s).isSome) :
    ∃ digits back, s = digits ++ '.' :: back ∧ ∀ c ∈ digits, isDigitOf 10 c = true := by
  obtain ⟨_, read⟩ := Option.isSome_iff_exists.mp read
  obtain ⟨⟨a, front⟩, first, read⟩ := Option.bind_eq_some_iff.mp read
  obtain ⟨⟨b, more⟩, second, -⟩ := Option.bind_eq_some_iff.mp read
  obtain ⟨⟨n, front⟩, number, same⟩ := Option.map_eq_some_iff.mp first
  cases same
  obtain ⟨digits, rfl, all⟩ := digits_of_number number
  obtain ⟨⟨⟨⟩, back⟩, marked, -⟩ := Option.bind_eq_some_iff.mp second
  exact ⟨digits, back, by rw [(mark_eq_some_iff _ _ _).mp marked], all⟩

/-- Behind a group comes something else than a digit or a point. -/
structure EndsGroup (rest : List Char) : Prop where
  stops : StopsDigits 16 rest
  level : rest.head? ≠ some '.'

/-- A group is not the beginning of four bytes. -/
theorem fourBytes_group (g : UInt16) {rest : List Char} (ends : EndsGroup rest) :
    fourBytes (numeral 16 g.toNat ++ rest) = none := by
  rw [← Option.not_isSome_iff_eq_none]
  intro read
  obtain ⟨digits, back, same, all⟩ := point_of_fourBytes read
  rcases List.append_eq_append_iff.mp same with ⟨more, rfl, behind⟩ | ⟨more, group, point⟩
  · cases more with
    | nil => exact ends.level (by rw [behind]; rfl)
    | cons c more =>
      have stop := ends.stops c (by rw [behind]; rfl)
      have digit := isDigitOf_mono (show 10 ≤ 16 by omega) c (all c (by simp))
      simp [stop] at digit
  · cases more with
    | nil => exact ends.level (by rw [← List.nil_append rest, ← point]; rfl)
    | cons c more =>
      -- there is no point within the group
      cases point
      have digit := @isDigitOf_of_mem_numeral 16 (by omega) (by omega) g.toNat '.' (by simp [group])
      revert digit
      decide

theorem number_group (g : UInt16) {rest : List Char} (ends : EndsGroup rest) :
    number 16 (some 4) true 0xFFFF (numeral 16 g.toNat ++ rest) = some (g.toNat, rest) := by
  have small : g.toNat < 65536 := g.toNat_lt
  have narrow : (numeral 16 g.toNat).length ≤ 4 :=
    length_numeral_le (by omega) 4 _ (by omega) (by omega)
  exact number_numeral (by omega) (by omega) _ _ _ _ ends.stops (by simpa using narrow) (by omega)

/-- What may stand behind an address of the second family: the bracket that closes it, or its zone. -/
def EndsHost (rest : List Char) : Prop := ∃ c back, rest = c :: back ∧ (c = ']' ∨ c = '%')

/-- What may stand behind groups that are read to their end: the end of the address or the gap in
it. -/
def EndsGroups (rest : List Char) : Prop := EndsHost rest ∨ ∃ back, rest = ':' :: ':' :: back

theorem endsGroup_cons {c : Char} (stop : isDigitOf 16 c = false) (level : c ≠ '.')
    (rest : List Char) : EndsGroup (c :: rest) :=
  ⟨stopsDigits_cons stop rest, by simpa using level⟩

theorem EndsGroups.endsGroup {rest : List Char} (ends : EndsGroups rest) : EndsGroup rest := by
  rcases ends with ⟨c, back, rfl, rfl | rfl⟩ | ⟨back, rfl⟩
  all_goals exact endsGroup_cons (by decide) (by decide) _

/-- Each group behind a colon. -/
def colonGroups (gs : List UInt16) : List Char := gs.flatMap fun g => ':' :: numeral 16 g.toNat

theorem endsGroup_colonGroups (gs : List UInt16) {rest : List Char} (ends : EndsGroups rest) :
    EndsGroup (colonGroups gs ++ rest) := by
  cases gs with
  | nil => exact ends.endsGroup
  | cons g gs => exact endsGroup_cons (by decide) (by decide) _

theorem coloned_cons (g : UInt16) (gs : List UInt16) :
    HostAddress.coloned (g :: gs) = numeral 16 g.toNat ++ colonGroups gs := by
  rw [HostAddress.coloned, List.map_cons, joinWith_cons, List.flatMap_map]
  rfl

theorem fourBytes_of_stops {s : List Char} (stops : StopsDigits 10 s) : fourBytes s = none := by
  simp [fourBytes, byte, number_of_stopsDigits _ _ _ stops]

/-- Where the groups end, nothing is read that begins with a digit. -/
theorem part_of_endsGroups {α : Type} (index : Nat) (read : Reader α)
    (unread : ∀ s, StopsDigits 16 s → read s = none) {rest : List Char} (ends : EndsGroups rest) :
    part ':' index read rest = none := by
  have stops := ends.endsGroup.stops
  unfold part
  split
  · exact unread rest stops
  · rcases ends with ⟨c, back, rfl, rfl | rfl⟩ | ⟨back, rfl⟩
    · rfl
    · rfl
    · exact unread _ (stopsDigits_cons (by decide) back)

theorem groups_of_endsGroups (index room : Nat) {rest : List Char} (ends : EndsGroups rest) :
    groups index room rest = ([], false, rest) := by
  have bytes : part ':' index fourBytes rest = none := by
    refine part_of_endsGroups index fourBytes (fun s stops => fourBytes_of_stops ?_) ends
    intro c first
    have stop := stops c first
    by_contra digit
    rw [Bool.not_eq_false] at digit
    simp [isDigitOf_mono (show 10 ≤ 16 by omega) c digit] at stop
  have number := part_of_endsGroups index (number 16 (some 4) true 0xFFFF)
    (fun _ => number_of_stopsDigits _ _ _) ends
  cases room with
  | zero => rfl
  | succ room => simp [groups, bytes, number]

/-- One group is read, and then the next ones. -/
theorem groups_group (index room : Nat) (g : UInt16) {s rest : List Char}
    (bytes : part ':' index fourBytes s = none)
    (number : part ':' index (number 16 (some 4) true 0xFFFF) s = some (g.toNat, rest)) :
    groups index (room + 1) s = (g :: (groups (index + 1) room rest).1,
      (groups (index + 1) room rest).2.1, (groups (index + 1) room rest).2.2) := by
  simp [groups, bytes, number]

/-- Groups are read back as far as there is room for them. -/
theorem groups_colonGroups (gs : List UInt16) (index room : Nat) (later : index ≠ 0)
    (fits : gs.length ≤ room) {rest : List Char} (ends : EndsGroups rest) :
    groups index room (colonGroups gs ++ rest) = (gs, false, rest) := by
  induction gs generalizing index room with
  | nil => exact groups_of_endsGroups index room ends
  | cons g gs ih =>
    obtain ⟨room, rfl⟩ := Nat.exists_eq_succ_of_ne_zero (show room ≠ 0 by rintro rfl; simp at fits)
    have text : colonGroups (g :: gs) ++ rest =
        ':' :: (numeral 16 g.toNat ++ (colonGroups gs ++ rest)) := by
      simp [colonGroups]
    have behind := endsGroup_colonGroups gs ends
    rw [text, @groups_group index room g _ (colonGroups gs ++ rest)
      (by rw [part_cons _ later, fourBytes_group g behind])
      (by rw [part_cons _ later, number_group g behind]),
      ih (index + 1) room (by omega) (by simpa using fits)]

theorem groups_coloned (gs : List UInt16) (room : Nat) (fits : gs.length ≤ room)
    {rest : List Char} (ends : EndsGroups rest) :
    groups 0 room (HostAddress.coloned gs ++ rest) = (gs, false, rest) := by
  cases gs with
  | nil => exact groups_of_endsGroups 0 room ends
  | cons g gs =>
    obtain ⟨room, rfl⟩ := Nat.exists_eq_succ_of_ne_zero (show room ≠ 0 by rintro rfl; simp at fits)
    have behind := endsGroup_colonGroups gs ends
    rw [coloned_cons, List.append_assoc, @groups_group 0 room g _ (colonGroups gs ++ rest)
      (fourBytes_group g behind) (number_group g behind),
      groups_colonGroups gs 1 room (by omega) (by simpa using fits) ends]

/-- The groups in which four bytes are embedded are read back. -/
theorem groups_embedded (a b c d : UInt8) {rest : List Char} (stops : StopsDigits 10 rest) :
    groups 0 7 ("ffff:".toList ++ HostAddress.dotted [a, b, c, d] ++ rest) =
      ([(0xFFFF : UInt16), a.toUInt16 <<< 8 ||| b.toUInt16, c.toUInt16 <<< 8 ||| d.toUInt16], true,
        rest) := by
  have text : "ffff:".toList ++ HostAddress.dotted [a, b, c, d] ++ rest =
      numeral 16 (0xFFFF : UInt16).toNat ++ ':' :: (HostAddress.dotted [a, b, c, d] ++ rest) := by
    have word : numeral 16 (0xFFFF : UInt16).toNat = "ffff".toList := by
      simp [numeral, digitChar]
    rw [word]
    rfl
  have behind : EndsGroup (':' :: (HostAddress.dotted [a, b, c, d] ++ rest)) :=
    endsGroup_cons (by decide) (by decide) _
  have bytes : groups 1 6 (':' :: (HostAddress.dotted [a, b, c, d] ++ rest)) =
      ([a.toUInt16 <<< 8 ||| b.toUInt16, c.toUInt16 <<< 8 ||| d.toUInt16], true, rest) := by
    rw [groups, part_cons _ (by omega), if_neg (by omega), fourBytes_dotted a b c d stops]
  rw [text, groups_group 0 6 0xFFFF (fourBytes_group _ behind) (number_group _ behind), bytes]

/-- Two bytes of a group make the group. -/
theorem word_of_bytes (a : UInt16) :
    (a >>> 8).toUInt8.toUInt16 <<< 8 ||| a.toUInt8.toUInt16 = a := by
  have small : a.toNat < 65536 := a.toNat_lt
  have high : a.toNat / 256 < 256 := by omega
  have halves : (a.toNat / 256) <<< 8 % 65536 ||| a.toNat % 256 = a.toNat := by
    rw [Nat.mod_eq_of_lt (by rw [Nat.shiftLeft_eq]; omega),
      ← Nat.shiftLeft_add_eq_or_of_lt (Nat.mod_lt _ (by omega)), Nat.shiftLeft_eq]
    omega
  apply UInt16.toNat_inj.mp
  simpa [Nat.shiftRight_eq_div_pow, Nat.mod_eq_of_lt high] using halves

/-- A run of zeros in a list of groups: where it starts, and its length. -/
def IsZeros (gs : List UInt16) (found : Nat × Nat) : Prop :=
  ∃ front back, gs = front ++ List.replicate found.2 0 ++ back ∧ front.length = found.1

theorem isZeros_longestZeros (front rest : List UInt16) (run : Nat) (best : Nat × Nat)
    (ends : ∃ before, front = before ++ List.replicate run 0) (found : IsZeros front best) :
    IsZeros (front ++ rest) (HostAddress.longestZeros rest front.length run best) := by
  induction rest generalizing front run best with
  | nil => simpa [HostAddress.longestZeros] using found
  | cons g rest ih =>
    have further (best : Nat × Nat) (found : IsZeros front best) : IsZeros (front ++ [g]) best := by
      obtain ⟨before, back, rfl, start⟩ := found
      exact ⟨before, back ++ [g], by simp, start⟩
    have whole : front ++ g :: rest = (front ++ [g]) ++ rest := by simp
    have length : front.length + 1 = (front ++ [g]).length := by simp
    rw [HostAddress.longestZeros, whole, length]
    split
    next zero =>
      obtain ⟨before, rfl⟩ := ends
      have longer : before ++ List.replicate run 0 ++ [g] =
          before ++ List.replicate (run + 1) 0 := by
        rw [zero, List.append_assoc, List.replicate_succ']
      dsimp only
      split
      · apply ih _ _ _ ⟨before, longer⟩
        exact ⟨before, [], by simp [longer], by simp⟩
      · exact ih _ _ _ ⟨before, longer⟩ (further best found)
    next => exact ih _ _ _ ⟨front ++ [g], by simp⟩ (further best found)

theorem ofGroups?_toList (gs : Vector UInt16 8) : ofGroups? gs.toList = some (.v6 gs) := by
  have whole : (⟨gs.toList.toArray, by simp⟩ : Vector UInt16 8) = gs := by
    apply Vector.toArray_inj.mp
    exact Array.toArray_toList
  simp only [ofGroups?]
  rw [dif_pos (by simp), whole]

/-- An address with a gap is read before and behind it. -/
theorem sixth_gap (front behind : List UInt16) (flag : Bool) {s more rest : List Char}
    (first : groups 0 8 s = (front, false, ':' :: ':' :: more)) (short : front.length ≠ 8)
    (second : groups 0 (7 - front.length) more = (behind, flag, rest)) :
    sixth s = (ofGroups? (front ++ List.replicate (8 - front.length - behind.length) 0 ++
      behind)).map (·, rest) := by
  simp [sixth, first, short, second, mark]

/-- Nothing stands before the gap of an address that embeds four bytes, and the bytes are its last
two groups. -/
theorem sixth_embedded (a b : UInt16) {rest : List Char} (ends : EndsHost rest) :
    sixth (':' :: ':' :: ("ffff:".toList ++ HostAddress.dotted
      [(a >>> 8).toUInt8, a.toUInt8, (b >>> 8).toUInt8, b.toUInt8] ++ rest)) =
      (ofGroups? [0, 0, 0, 0, 0, 0xFFFF, a, b]).map (·, rest) := by
  have stops : StopsDigits 10 rest := by
    obtain ⟨c, back, rfl, rfl | rfl⟩ := ends
    all_goals exact stopsDigits_cons (by decide) back
  have bytes := groups_embedded (a >>> 8).toUInt8 a.toUInt8 (b >>> 8).toUInt8 b.toUInt8 stops
  rw [word_of_bytes, word_of_bytes] at bytes
  have gapless := @groups_of_endsGroups 0 8 (':' :: ':' :: ("ffff:".toList ++ HostAddress.dotted
    [(a >>> 8).toUInt8, a.toUInt8, (b >>> 8).toUInt8, b.toUInt8] ++ rest)) (.inr ⟨_, rfl⟩)
  exact sixth_gap [] _ _ gapless (by simp) bytes

/-- A run of zeros that is left out is what is missing of the eight groups. -/
theorem sixth_zeros (front behind : List UInt16) (zeros : Nat) {rest : List Char}
    (ends : EndsHost rest) (left : 0 < zeros) (all : front.length + zeros + behind.length = 8) :
    sixth (HostAddress.coloned front ++ ':' :: ':' :: (HostAddress.coloned behind ++ rest)) =
      (ofGroups? (front ++ List.replicate zeros 0 ++ behind)).map (·, rest) := by
  have before := @groups_coloned front 8 (by omega)
    (':' :: ':' :: (HostAddress.coloned behind ++ rest)) (.inr ⟨_, rfl⟩)
  have after := groups_coloned behind (7 - front.length) (by omega) (.inl ends)
  have room : 8 - front.length - behind.length = zeros := by omega
  have read := sixth_gap front behind false before (by omega) after
  rwa [room] at read

/-- Whatever an address of the second family is, it is read back to its end. -/
theorem sixth_chars (gs : Vector UInt16 8) {rest : List Char} (ends : EndsHost rest) :
    sixth ((HostAddress.v6 gs).chars ++ rest) = some (.v6 gs, rest) := by
  have length : gs.toList.length = 8 := by simp
  have whole := ofGroups?_toList gs
  unfold HostAddress.chars
  dsimp only
  generalize gs.toList = groups at length whole
  cases embedded : HostAddress.embedded? groups with
  | some bytes =>
    unfold HostAddress.embedded? at embedded
    split at embedded
    next a b =>
      cases embedded
      have read := sixth_embedded a b ends
      rw [whole, List.append_assoc] at read
      simpa using read
    next => cases embedded
  | none =>
    have run := isZeros_longestZeros [] groups 0 (0, 0) ⟨[], rfl⟩ ⟨[], [], rfl, rfl⟩
    rw [List.nil_append] at run
    dsimp only [List.length_nil] at run ⊢
    generalize HostAddress.longestZeros groups 0 0 (0, 0) = found at run
    obtain ⟨start, zeros⟩ := found
    dsimp only
    split
    next gap =>
      obtain ⟨front, behind, rfl, rfl⟩ := run
      dsimp only at length
      simp only [List.length_append, List.length_replicate] at length
      have read := sixth_zeros front behind zeros ends (by omega) length
      have taken : (front ++ List.replicate zeros 0 ++ behind).take front.length = front := by
        rw [List.append_assoc, List.take_left]
      have dropped : (front ++ List.replicate zeros 0 ++ behind).drop (front.length + zeros) =
          behind := List.drop_left' (by simp)
      rw [whole] at read
      dsimp only
      rw [taken, dropped]
      simpa using read
    next =>
      have read := groups_coloned groups 8 (by omega) (.inl ends)
      simp [sixth, read, length, whole]

/-- An address of the second family begins with a colon or with a group and a colon. -/
theorem chars_cases (gs : Vector UInt16 8) : (∃ more, (HostAddress.v6 gs).chars = ':' :: more) ∨
    ∃ (g : UInt16) (more : List Char),
      (HostAddress.v6 gs).chars = numeral 16 g.toNat ++ ':' :: more := by
  have length : gs.toList.length = 8 := by simp
  unfold HostAddress.chars
  dsimp only
  generalize gs.toList = groups at length
  split
  · exact .inl ⟨_, rfl⟩
  · split
    · cases groups.take _ with
      | nil => exact .inl ⟨_, rfl⟩
      | cons g front =>
        rw [coloned_cons]
        -- a colon comes from the next group or from the gap
        cases front with
        | nil => exact .inr ⟨g, _, by
          rw [colonGroups, List.flatMap_nil, List.append_nil, List.append_assoc]; rfl⟩
        | cons h front => exact .inr ⟨g, _, by simp only [colonGroups, List.append_assoc]; rfl⟩
    · match groups, length with
      | g :: h :: rest, _ => exact .inr ⟨g, _, by rw [coloned_cons]; rfl⟩

theorem port_numeral (p : UInt16) : port (':' :: numeral 10 p.toNat) = some (p, []) := by
  have small : p.toNat < 65536 := p.toNat_lt
  have read := @number_numeral 10 (by omega) (by omega) none true 0xFFFF p.toNat _
    (stopsDigits_nil 10) (by simp) (by omega)
  rw [List.append_nil] at read
  simp [port, mark, read]

/-- The zone of an address as it is written, if there is one. -/
def zoned (z : UInt32) : List Char := if z = 0 then [] else '%' :: numeral 10 z.toNat

/-- What is behind the host is its zone, if it has one, and then the bracket. -/
theorem zone_zoned (z : UInt32) (rest : List Char) :
    (zone (zoned z ++ ']' :: rest)).getD (0, zoned z ++ ']' :: rest) = (z, ']' :: rest) := by
  unfold zoned
  split
  next zero => rw [zero]; rfl
  next =>
    have small : z.toNat < 4294967296 := z.toNat_lt
    have read := @number_numeral 10 (by omega) (by omega) none true 0xFFFFFFFF z.toNat _
      (stopsDigits_cons (c := ']') (by decide) rest) (by simp) (by omega)
    simp [zone, mark, read]

theorem endsHost_zoned (z : UInt32) (rest : List Char) : EndsHost (zoned z ++ ']' :: rest) := by
  unfold zoned
  split
  · exact ⟨_, _, rfl, .inl rfl⟩
  · exact ⟨_, _, rfl, .inr rfl⟩

theorem mark_self (c : Char) (s : List Char) : mark c (c :: s) = some ((), s) :=
  (mark_eq_some_iff c _ _).mpr rfl

/-- A number does not begin with a mark that is no digit. -/
theorem mark_numeral {c : Char} (other : isDigitOf 16 c = false) (n : Nat) (rest : List Char) :
    mark c (numeral 16 n ++ rest) = none := by
  obtain ⟨first, digits, written, -⟩ := @numeral_head 16 (by omega) (by omega) n
  have apart : first ≠ c := by
    rintro rfl
    have digit := @isDigitOf_of_mem_numeral 16 (by omega) (by omega) n first (by simp [written])
    simp [digit] at other
  simp [written, mark, apart]

theorem chars_socketV4 (bytes : Vector UInt8 4) (p : UInt16) (z : UInt32) :
    SocketAddress.chars ⟨.v4 bytes, p, z⟩ =
      (HostAddress.v4 bytes).chars ++ ':' :: numeral 10 p.toNat := rfl

theorem chars_socketV6 (gs : Vector UInt16 8) (p : UInt16) (z : UInt32) :
    SocketAddress.chars ⟨.v6 gs, p, z⟩ =
      '[' :: ((HostAddress.v6 gs).chars ++ (zoned z ++ ']' :: ':' :: numeral 10 p.toNat)) := by
  have same : SocketAddress.chars ⟨.v6 gs, p, z⟩ = '[' :: (HostAddress.v6 gs).chars ++ zoned z ++
      ']' :: ':' :: numeral 10 p.toNat := rfl
  rw [same, List.cons_append, List.cons_append, List.append_assoc]

/-- A host and a port, joined with a colon. -/
theorem toList_withPort (host : String) (p : UInt16) :
    (host ++ ":" ++ decimal p.toNat).toList = host.toList ++ ':' :: numeral 10 p.toNat := by
  simp [decimal]

/-- Without brackets, no socket address begins with one of the second family. -/
theorem parse?_unenclosed (gs : Vector UInt16 8) (p : UInt16) :
    parse? ((HostAddress.v6 gs).text ++ ":" ++ decimal p.toNat) = none := by
  have text : ((HostAddress.v6 gs).text ++ ":" ++ decimal p.toNat).toList =
      (HostAddress.v6 gs).chars ++ ':' :: numeral 10 p.toNat := by
    rw [toList_withPort, HostAddress.text, String.toList_ofList]
  unfold parse?
  rw [text]
  rcases chars_cases gs with ⟨more, begins⟩ | ⟨g, more, begins⟩
  · have first : fourBytes (':' :: (more ++ ':' :: numeral 10 p.toNat)) = none :=
      fourBytes_of_stops (stopsDigits_cons (by decide) _)
    simp [begins, socketV4, first, socketV6, mark]
  · -- a byte would end with a dot, and a group does not begin with a bracket
    have first (rest : List Char) : fourBytes (numeral 16 g.toNat ++ ':' :: rest) = none :=
      fourBytes_group g (endsGroup_cons (by decide) (by decide) rest)
    have second := mark_numeral (c := '[') (by decide) g.toNat
    simp [begins, socketV4, first, socketV6, second]

theorem socketV4_chars (bytes : Vector UInt8 4) (p : UInt16) :
    socketV4 (SocketAddress.chars ⟨.v4 bytes, p, 0⟩) = some (⟨.v4 bytes, p, 0⟩, []) := by
  obtain ⟨a, b, c, d, rfl⟩ : ∃ a b c d, bytes = #v[a, b, c, d] :=
    ⟨bytes[0], bytes[1], bytes[2], bytes[3], by
      ext i small
      match i, small with
      | 0, _ | 1, _ | 2, _ | 3, _ => rfl⟩
  have dotted : (HostAddress.v4 #v[a, b, c, d]).chars = HostAddress.dotted [a, b, c, d] := rfl
  have read := @fourBytes_dotted a b c d (':' :: numeral 10 p.toNat)
    (stopsDigits_cons (by decide) _)
  simp only [socketV4, chars_socketV4, dotted, read, port_numeral, Option.bind_eq_bind,
    Option.bind_some]

theorem socketV6_chars (gs : Vector UInt16 8) (p : UInt16) (z : UInt32) :
    socketV6 (SocketAddress.chars ⟨.v6 gs, p, z⟩) = some (⟨.v6 gs, p, z⟩, []) := by
  have host := sixth_chars gs (endsHost_zoned z (':' :: numeral 10 p.toNat))
  rw [chars_socketV6, socketV6, mark_self]
  simp only [Option.bind_eq_bind, Option.bind_some]
  rw [host]
  simp only [Option.bind_some]
  rw [zone_zoned, mark_self]
  simp only [Option.bind_some]
  rw [port_numeral]
  rfl

/-- A socket address is read back from its text, if only one of the second family has a zone. -/
theorem parse?_text (a : SocketAddress) (zoneless : ∀ bytes, a.host = .v4 bytes → a.zone = 0) :
    parse? a.text = some a := by
  have text : a.text.toList = a.chars := String.toList_ofList
  unfold parse?
  rw [text]
  obtain ⟨host, p, z⟩ := a
  cases host with
  | v4 bytes =>
    obtain rfl := zoneless bytes rfl
    rw [socketV4_chars]
    rfl
  | v6 gs =>
    -- four bytes do not begin with a bracket
    have first : fourBytes (SocketAddress.chars ⟨.v6 gs, p, z⟩) = none :=
      fourBytes_of_stops (stopsDigits_cons (by decide) _)
    have absent : socketV4 (SocketAddress.chars ⟨.v6 gs, p, z⟩) = none := by
      rw [socketV4, first]
      rfl
    rw [absent, Option.orElse_none, socketV6_chars]

end Workbench.Address
