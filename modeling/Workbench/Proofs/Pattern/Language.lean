import Workbench.Proofs.Pattern.Cut

/-!
# What a pattern reads

A pattern with no edges reads the same stretches of characters at every place. So whether it fits
somewhere, and what it remembers, is told by the texts that it reads and by their parts. Where it
reads one text only at a place, a rule for it with an optional mark behind replaces that text.
-/
namespace Workbench

/-- The remembered stretches, latest first. -/
def Fit.groups (fit : Fit) : List (Nat × List Char) :=
  fit.captures.map fun (number, start, stop) => (number, start.upTo stop)

theorem Fit.group_eq (fit : Fit) (number : Nat) :
    fit.group number = (fit.groups.lookup number).getD [] := by
  unfold Fit.group Fit.groups
  induction fit.captures with
  | nil => rfl
  | cons capture rest ih =>
    obtain ⟨other, start, stop⟩ := capture
    simp only [List.map_cons, List.lookup_cons]
    cases number == other
    · exact ih
    · rfl

/-- A replacement put together from remembered stretches. -/
def fillFrom (groups : List (Nat × List Char)) (pieces : List Piece) : List Char :=
  pieces.flatMap fun
    | .text s => s.toList
    | .group number => (groups.lookup number).getD []

theorem Fit.fill_eq (fit : Fit) (pieces : List Piece) :
    fit.fill pieces = fillFrom fit.groups pieces := by
  unfold Fit.fill fillFrom
  congr 1
  funext piece
  cases piece with
  | text s => rfl
  | group number => exact fit.group_eq number

theorem Cursor.upTo_eq {c stop : Cursor} {xs : List Char} (after : c.after = xs ++ stop.after) :
    c.upTo stop = xs := by
  rw [upTo, after, List.length_append, Nat.add_sub_cancel, List.take_left]

namespace Pattern

/-- A pattern reads a text, and remembers parts of it, latest first. -/
inductive Reads : Pattern → List Char → List (Nat × List Char) → Prop where
  | one {kind : CharClass} {c : Char} (member : kind.has c = true) : Reads (.one kind) [c] []
  | edge : Reads .edge [] []
  | seq {p q : Pattern} {xs ys : List Char} {groups more : List (Nat × List Char)}
    (first : Reads p xs groups) (second : Reads q ys more) :
    Reads (.seq p q) (xs ++ ys) (more ++ groups)
  | present {part : Pattern} {xs : List Char} {groups : List (Nat × List Char)}
    (reads : Reads part xs groups) : Reads (.maybe part) xs groups
  | absent (part : Pattern) : Reads (.maybe part) [] []
  | many (wish : Preference) {kind : CharClass} {xs : List Char}
    (members : ∀ c ∈ xs, kind.has c = true) : Reads (.many wish kind) xs []
  | capture (number : Nat) {part : Pattern} {xs : List Char} {groups : List (Nat × List Char)}
    (reads : Reads part xs groups) : Reads (.capture number part) xs ((number, xs) :: groups)

section

variable {p q : Pattern} {kind : CharClass} {xs : List Char} {groups : List (Nat × List Char)}

theorem reads_one_iff :
    Reads (.one kind) xs groups ↔ ∃ c, kind.has c = true ∧ xs = [c] ∧ groups = [] := by
  constructor
  · rintro ⟨⟩
    exact ⟨_, ‹_›, rfl, rfl⟩
  · rintro ⟨c, member, rfl, rfl⟩
    exact .one member

theorem reads_seq_iff : Reads (.seq p q) xs groups ↔ ∃ ys zs before behind,
    p.Reads ys before ∧ q.Reads zs behind ∧ xs = ys ++ zs ∧ groups = behind ++ before := by
  constructor
  · intro reads
    cases reads with
    | seq first second => exact ⟨_, _, _, _, first, second, rfl, rfl⟩
  · rintro ⟨ys, zs, before, behind, first, second, rfl, rfl⟩
    exact .seq first second

theorem reads_maybe_iff :
    Reads (.maybe p) xs groups ↔ p.Reads xs groups ∨ xs = [] ∧ groups = [] := by
  constructor
  · intro reads
    cases reads with
    | present reads => exact .inl reads
    | absent => exact .inr ⟨rfl, rfl⟩
  · rintro (reads | ⟨rfl, rfl⟩)
    · exact .present reads
    · exact .absent p

theorem reads_many_iff (wish : Preference) :
    Reads (.many wish kind) xs groups ↔ (∀ c ∈ xs, kind.has c = true) ∧ groups = [] := by
  constructor
  · intro reads
    cases reads with
    | many _ members => exact ⟨members, rfl⟩
  · rintro ⟨members, rfl⟩
    exact .many wish members

theorem reads_capture_iff (number : Nat) : Reads (.capture number p) xs groups ↔
    ∃ inner, p.Reads xs inner ∧ groups = (number, xs) :: inner := by
  constructor
  · intro reads
    cases reads with
    | capture _ reads => exact ⟨_, reads, rfl⟩
  · rintro ⟨inner, reads, rfl⟩
    exact .capture number reads

theorem reads_oneOrMore_iff (wish : Preference) : Reads (oneOrMore wish kind) xs groups ↔
    xs ≠ [] ∧ (∀ c ∈ xs, kind.has c = true) ∧ groups = [] := by
  rw [oneOrMore, reads_seq_iff]
  constructor
  · rintro ⟨ys, zs, before, behind, first, second, rfl, rfl⟩
    obtain ⟨c, member, rfl, rfl⟩ := reads_one_iff.mp first
    obtain ⟨members, rfl⟩ := (reads_many_iff wish).mp second
    refine ⟨by simp, fun a listed => ?_, rfl⟩
    rcases List.mem_cons.mp listed with rfl | later
    · exact member
    · exact members a later
  · rintro ⟨nonempty, members, rfl⟩
    obtain ⟨c, rest, rfl⟩ := List.exists_cons_of_ne_nil nonempty
    exact ⟨[c], rest, [], [], .one (members c List.mem_cons_self),
      .many wish fun a later => members a (List.mem_cons_of_mem c later), rfl, rfl⟩

end

theorem reads_foldl_iff (cs : List Char) (front : Pattern) (xs : List Char)
    (groups : List (Nat × List Char)) :
    Reads ((cs.map fun c => .one (.of [c])).foldl .seq front) xs groups ↔
      ∃ ys, front.Reads ys groups ∧ xs = ys ++ cs := by
  induction cs generalizing front with
  | nil => simp
  | cons c rest ih =>
    rw [List.map_cons, List.foldl_cons, ih]
    constructor
    · rintro ⟨_, reads, rfl⟩
      obtain ⟨ys, zs, _, _, first, second, rfl, rfl⟩ := reads_seq_iff.mp reads
      obtain ⟨a, member, rfl, rfl⟩ := reads_one_iff.mp second
      obtain rfl : a = c := by simpa [CharClass.has] using member
      exact ⟨ys, first, by simp⟩
    · rintro ⟨ys, reads, rfl⟩
      have one : Reads (.one (.of [c])) [c] [] := .one (by simp [CharClass.has])
      exact ⟨ys ++ [c], .seq reads one, by simp⟩

/-- A literal reads itself. -/
theorem reads_literal_iff (s : String) (xs : List Char) (groups : List (Nat × List Char)) :
    Reads (literal s) xs groups ↔ xs = s.toList ∧ groups = [] := by
  unfold literal
  cases s.toList with
  | nil =>
    rw [List.map_nil, reads_many_iff]
    simp [CharClass.has, List.eq_nil_iff_forall_not_mem]
  | cons c rest =>
    rw [List.map_cons]
    dsimp only
    rw [reads_foldl_iff]
    constructor
    · rintro ⟨ys, reads, rfl⟩
      obtain ⟨a, member, rfl, rfl⟩ := reads_one_iff.mp reads
      obtain rfl : a = c := by simpa [CharClass.has] using member
      exact ⟨rfl, rfl⟩
    · rintro ⟨rfl, rfl⟩
      exact ⟨[c], .one (by simp [CharClass.has]), rfl⟩

/-- Patterns that read texts one after another. -/
def ReadsAll : List Pattern → List Char → List (Nat × List Char) → Prop
  | [], xs, groups => xs = [] ∧ groups = []
  | p :: rest, xs, groups => ∃ ys zs before behind, p.Reads ys before ∧
      ReadsAll rest zs behind ∧ xs = ys ++ zs ∧ groups = behind ++ before

theorem readsAll_nil_iff (xs : List Char) (groups : List (Nat × List Char)) :
    ReadsAll [] xs groups ↔ xs = [] ∧ groups = [] := .rfl

theorem readsAll_cons_iff (p : Pattern) (rest : List Pattern) (xs : List Char)
    (groups : List (Nat × List Char)) : ReadsAll (p :: rest) xs groups ↔
      ∃ ys zs before behind, p.Reads ys before ∧ ReadsAll rest zs behind ∧ xs = ys ++ zs ∧
        groups = behind ++ before := .rfl

theorem reads_all_iff (front : Pattern) (rest : List Pattern) (xs : List Char)
    (groups : List (Nat × List Char)) :
    (all front rest).Reads xs groups ↔ ReadsAll (front :: rest) xs groups := by
  unfold all
  induction rest generalizing front with
  | nil =>
    constructor
    · exact fun reads => ⟨xs, [], groups, [], reads, ⟨rfl, rfl⟩, by simp, rfl⟩
    · rintro ⟨ys, _, before, _, reads, ⟨rfl, rfl⟩, rfl, rfl⟩
      simpa using reads
  | cons part rest ih =>
    rw [List.foldl_cons, ih]
    constructor
    · rintro ⟨_, ws, _, last, first, later, rfl, rfl⟩
      obtain ⟨ys, zs, before, behind, opening, next, rfl, rfl⟩ := reads_seq_iff.mp first
      exact ⟨ys, zs ++ ws, before, last ++ behind, opening, ⟨zs, ws, behind, last, next, later, rfl,
        rfl⟩, by simp, by simp⟩
    · rintro ⟨ys, _, before, _, opening, ⟨zs, ws, behind, last, next, later, rfl, rfl⟩, rfl, rfl⟩
      exact ⟨ys ++ zs, ws, behind ++ before, last, .seq opening next, later, by simp, by simp⟩

theorem readsAll_literal_iff (s : String) (rest : List Pattern) (xs : List Char)
    (groups : List (Nat × List Char)) : ReadsAll (literal s :: rest) xs groups ↔
      ∃ zs, ReadsAll rest zs groups ∧ xs = s.toList ++ zs := by
  simp only [ReadsAll, reads_literal_iff]
  constructor
  · rintro ⟨_, zs, _, behind, ⟨rfl, rfl⟩, later, rfl, rfl⟩
    exact ⟨zs, by simpa using later, rfl⟩
  · rintro ⟨zs, later, rfl⟩
    exact ⟨_, zs, _, groups, ⟨rfl, rfl⟩, later, rfl, by simp⟩

theorem Repeats.takes {wish : Preference} {kind : CharClass} {c stop : Cursor}
    {turns : List Turn} (repeats : Repeats wish kind c turns stop) : ∃ xs,
      (∀ a ∈ xs, kind.has a = true) ∧ c.after = xs ++ stop.after ∧
        stop.before = xs.reverse ++ c.before := by
  induction repeats with
  | stop => exact ⟨[], by simp, rfl, rfl⟩
  | @take _ a _ _ _ member _ ih =>
    obtain ⟨xs, members, after, before⟩ := ih
    exact ⟨a :: xs, by simpa [member] using members, by simpa using after, by simpa using before⟩

/-- A fit reads what stands between its two ends. -/
theorem Fits.reads {p : Pattern} {start done : Fit} {turns : List Turn}
    (fits : p.Fits start turns done) : ∃ xs groups, p.Reads xs groups ∧
      start.cursor.after = xs ++ done.cursor.after ∧
      done.cursor.before = xs.reverse ++ start.cursor.before ∧
      done.groups = groups ++ start.groups := by
  induction fits with
  | one member => exact ⟨_, _, .one member, rfl, rfl, rfl⟩
  | edge => exact ⟨[], [], .edge, rfl, rfl, rfl⟩
  | seq _ _ first second =>
    obtain ⟨xs, groups, reads, after, before, known⟩ := first
    obtain ⟨ys, more, reads', after', before', known'⟩ := second
    exact ⟨_, _, .seq reads reads', by simp [after, after'], by simp [before, before'],
      by simp [known, known']⟩
  | present _ ih =>
    obtain ⟨xs, groups, reads, same⟩ := ih
    exact ⟨xs, groups, .present reads, same⟩
  | absent part => exact ⟨[], [], .absent part, rfl, rfl, rfl⟩
  | @many wish _ _ _ _ repeats =>
    obtain ⟨xs, members, after, before⟩ := repeats.takes
    exact ⟨xs, [], .many wish members, after, before, rfl⟩
  | @capture number _ start done _ _ ih =>
    obtain ⟨xs, groups, reads, after, before, known⟩ := ih
    refine ⟨xs, _, .capture number reads, after, before, ?_⟩
    change (number, start.cursor.upTo done.cursor) :: done.groups = _
    rw [Cursor.upTo_eq after, known, List.cons_append]

/-- Whether a pattern asks for no edge, so that it does not matter what stands before a place. -/
def isEdgeless : Pattern → Bool
  | .edge => false
  | .one _ | .many _ _ => true
  | .seq p q => p.isEdgeless && q.isEdgeless
  | .maybe part | .capture _ part => part.isEdgeless

theorem exists_repeats (wish : Preference) {kind : CharClass} {xs : List Char}
    (members : ∀ c ∈ xs, kind.has c = true) (before rest : List Char) :
    ∃ turns, Repeats wish kind ⟨before, xs ++ rest⟩ turns ⟨xs.reverse ++ before, rest⟩ := by
  induction xs generalizing before with
  | nil => exact ⟨_, .stop _⟩
  | cons c xs ih =>
    obtain ⟨turns, further⟩ := ih (fun a later => members a (List.mem_cons_of_mem c later))
      (c :: before)
    rw [List.reverse_cons, List.append_assoc]
    exact ⟨_, .take (members c List.mem_cons_self) further⟩

/-- What a pattern with no edges reads it fits at any place. -/
theorem Reads.exists_fits {p : Pattern} {xs : List Char} {groups : List (Nat × List Char)}
    (reads : p.Reads xs groups) (edgeless : p.isEdgeless = true) (before rest : List Char)
    (captures : List (Nat × Cursor × Cursor)) : ∃ turns captures',
      p.Fits ⟨⟨before, xs ++ rest⟩, captures⟩ turns ⟨⟨xs.reverse ++ before, rest⟩, captures'⟩ := by
  induction reads generalizing before rest captures with
  | one member => exact ⟨_, _, .one member⟩
  | edge => cases edgeless
  | @seq p q xs ys _ _ _ _ first second =>
    rw [isEdgeless, Bool.and_eq_true] at edgeless
    obtain ⟨_, captures', fits⟩ := first edgeless.1 before (ys ++ rest) captures
    obtain ⟨_, _, fits'⟩ := second edgeless.2 (xs.reverse ++ before) rest captures'
    rw [List.append_assoc, List.reverse_append, List.append_assoc]
    exact ⟨_, _, .seq fits fits'⟩
  | present _ ih =>
    obtain ⟨_, _, fits⟩ := ih edgeless before rest captures
    exact ⟨_, _, .present fits⟩
  | absent part => exact ⟨_, _, .absent part _⟩
  | many wish members =>
    obtain ⟨_, repeats⟩ := exists_repeats wish members before rest
    exact ⟨_, _, .many repeats⟩
  | capture number _ ih =>
    obtain ⟨_, _, fits⟩ := ih edgeless before rest captures
    exact ⟨_, _, .capture fits⟩

/-- Where no text that a pattern reads comes next, the pattern does not fit. -/
theorem failsAt_of_reads {p : Pattern} {c : Cursor}
    (unread : ∀ xs groups rest, p.Reads xs groups → c.after ≠ xs ++ rest) : p.FailsAt c := by
  intro turns fit fits
  obtain ⟨xs, groups, reads, after, -⟩ := fits.reads
  exact unread xs groups fit.cursor.after reads after

theorem mem_outcomes_iff (p : Pattern) (start done : Fit) :
    done ∈ p.outcomes start ↔ ∃ turns, p.Fits start turns done := by
  rw [outcomes_eq, List.mem_map]
  constructor
  · rintro ⟨⟨turns, fit⟩, listed, rfl⟩
    exact ⟨turns, (mem_ways_iff p _ _ _).mp listed⟩
  · rintro ⟨turns, fits⟩
    exact ⟨(turns, done), (mem_ways_iff p _ _ _).mpr fits, rfl⟩

/-- A text is read exactly if there is a fit that leaves nothing of it. -/
theorem exists_reads_iff {p : Pattern} (edgeless : p.isEdgeless = true) (xs : List Char) :
    (∃ groups, p.Reads xs groups) ↔ ∃ fit ∈ p.outcomes ⟨.start xs, []⟩, fit.cursor.after = [] := by
  constructor
  · rintro ⟨groups, reads⟩
    obtain ⟨turns, captures, fits⟩ := reads.exists_fits edgeless [] [] []
    rw [List.append_nil] at fits
    exact ⟨_, (mem_outcomes_iff p _ _).mpr ⟨turns, fits⟩, rfl⟩
  · rintro ⟨fit, listed, left⟩
    obtain ⟨turns, fits⟩ := (mem_outcomes_iff p _ _).mp listed
    obtain ⟨ys, groups, reads, after, -⟩ := fits.reads
    rw [left, List.append_nil] at after
    obtain rfl : xs = ys := after
    exact ⟨groups, reads⟩

theorem fitAt?_eq_outcomes (p : Pattern) (c : Cursor) :
    p.fitAt? c = (p.outcomes ⟨c, []⟩).head? := by
  rw [fitAt?_eq_head?, outcomes_eq, List.head?_map]

/-- Two patterns with the same fits fail at the same places. -/
theorem failsAt_of_outcomes {p q : Pattern} (same : q.outcomes = p.outcomes) {c : Cursor}
    (fails : p.FailsAt c) : q.FailsAt c := by
  rwa [← fitAt?_eq_none_iff, fitAt?_eq_outcomes, same,
    ← fitAt?_eq_outcomes, fitAt?_eq_none_iff]

/-- A pattern with a mark behind it that may be left out. -/
def marked (p : Pattern) (mark : Char) : Pattern := .seq p (.maybe (.one (.of [mark])))

/-- The preferred fit takes the mark if it comes next. -/
theorem head?_outcomes_marked {p : Pattern} {start mid : Fit} (mark : Char)
    (head : (p.outcomes start).head? = some mid) (taken rest : List Char)
    (marks : taken = [mark] ∨ taken = [] ∧ rest.head? ≠ some mark) {before : List Char}
    (cursor : mid.cursor = ⟨before, taken ++ rest⟩) :
    ((p.marked mark).outcomes start).head? =
      some { mid with cursor := ⟨taken.reverse ++ before, rest⟩ } := by
  obtain ⟨more, first⟩ := List.head?_eq_some_iff.mp head
  obtain ⟨_, captures⟩ := mid
  cases cursor
  rcases marks with rfl | ⟨rfl, other⟩
  · simp [marked, outcomes, first, CharClass.has]
  · cases rest with
    | nil => simp [marked, outcomes, first]
    | cons c rest =>
      have different : c ≠ mark := by simpa using other
      simp [marked, outcomes, first, CharClass.has, different]

end Pattern

namespace RewriteRule

variable {rule : RewriteRule} {p : Pattern}

/-- A text that comes next and is the only one there that the pattern reads is replaced, with the
mark behind it. -/
theorem applyFrom_marked {mark : Char} (same : rule.pattern.outcomes = (p.marked mark).outcomes)
    (edgeless : p.isEdgeless = true) {xs taken rest : List Char} (nonempty : xs ≠ [])
    (marks : taken = [mark] ∨ taken = [] ∧ rest.head? ≠ some mark)
    (reads : ∃ groups, p.Reads xs groups)
    (only : ∀ ys groups rest', p.Reads ys groups → xs ++ (taken ++ rest) = ys ++ rest' → ys = xs)
    (before : List Char) : ∃ groups, p.Reads xs groups ∧
      rule.applyFrom before (xs ++ (taken ++ rest)) = fillFrom groups rule.replacement ++
        rule.applyFrom ((xs ++ taken).reverse ++ before) rest := by
  obtain ⟨known, reads⟩ := reads
  obtain ⟨turns, captures, fits⟩ := reads.exists_fits edgeless before (taken ++ rest) []
  have listed := (Pattern.mem_outcomes_iff p _ _).mpr ⟨turns, fits⟩
  cases head : (p.outcomes ⟨⟨before, xs ++ (taken ++ rest)⟩, []⟩).head? with
  | none =>
    rw [List.head?_eq_none_iff.mp head] at listed
    cases listed
  | some mid =>
    -- the preferred fit reads the same text as any other
    obtain ⟨turns, fits⟩ := (Pattern.mem_outcomes_iff p _ _).mp (List.mem_of_head? head)
    obtain ⟨ys, groups, own, after, before', remembered⟩ := fits.reads
    obtain rfl := only ys groups _ own after
    have cursor : mid.cursor = ⟨ys.reverse ++ before, taken ++ rest⟩ := by
      obtain ⟨⟨_, _⟩, _⟩ := mid
      cases List.append_cancel_left after
      cases before'
      rfl
    have found : rule.pattern.fitAt? ⟨before, ys ++ (taken ++ rest)⟩ =
        some { mid with cursor := ⟨taken.reverse ++ (ys.reverse ++ before), rest⟩ } := by
      rw [Pattern.fitAt?_eq_outcomes, same]
      exact Pattern.head?_outcomes_marked mark head taken rest marks cursor
    refine ⟨groups, own, ?_⟩
    obtain ⟨c, more, rfl⟩ := List.exists_cons_of_ne_nil nonempty
    rw [List.cons_append] at found ⊢
    rw [applyFrom, found]
    dsimp only
    have filled : Fit.groups { mid with cursor := ⟨taken.reverse ++ ((c :: more).reverse ++ before),
        rest⟩ } = groups := by simpa [Fit.groups] using remembered
    rw [if_pos (by simp; omega), Fit.fill_eq, filled, List.reverse_append, List.append_assoc]

end RewriteRule

end Workbench
