import Workbench.Proofs.Pattern.Choice

/-! Rewriting, told by how it cuts a text: into gaps that are kept and fits that are replaced. Every
text can be cut in this way, and what a rule makes of the text is put together from the cut. -/
namespace Workbench

namespace Cursor

/-- The place a number of characters further on. -/
def past (c : Cursor) (n : Nat) : Cursor := ⟨(c.after.take n).reverse ++ c.before, c.after.drop n⟩

/-- Whether a place comes no later in a text than another. -/
def Reaches (c stop : Cursor) : Prop :=
  ∃ taken, c.after = taken ++ stop.after ∧ stop.before = taken.reverse ++ c.before

variable {c mid stop : Cursor}

@[simp] theorem past_zero (c : Cursor) : c.past 0 = c := rfl

theorem past_past (c : Cursor) (m n : Nat) : (c.past m).past n = c.past (m + n) := by
  simp only [past, List.take_add, List.reverse_append, List.append_assoc, List.drop_drop]

theorem past_one (before : List Char) (a : Char) (rest : List Char) :
    Cursor.past ⟨before, a :: rest⟩ 1 = ⟨a :: before, rest⟩ := rfl

namespace Reaches

theorem refl (c : Cursor) : c.Reaches c := ⟨[], rfl, rfl⟩

theorem trans (first : c.Reaches mid) (second : mid.Reaches stop) : c.Reaches stop := by
  obtain ⟨taken, after, before⟩ := first
  obtain ⟨more, after', before'⟩ := second
  refine ⟨taken ++ more, ?_, ?_⟩
  · rw [after, after', List.append_assoc]
  · rw [before', before, List.reverse_append, List.append_assoc]

theorem take (before : List Char) (a : Char) (rest : List Char) :
    Reaches ⟨before, a :: rest⟩ ⟨a :: before, rest⟩ := ⟨[a], rfl, rfl⟩

theorem length_le (reaches : c.Reaches stop) : stop.after.length ≤ c.after.length := by
  obtain ⟨taken, after, -⟩ := reaches
  rw [after, List.length_append]
  omega

/-- What stands between two places, and then what follows the second, is what follows the first. -/
theorem upTo_append (reaches : c.Reaches stop) : c.upTo stop ++ stop.after = c.after := by
  obtain ⟨taken, after, -⟩ := reaches
  rw [upTo, after, List.length_append, Nat.add_sub_cancel, List.take_left]

end Reaches

end Cursor

/-- A fit that starts at a place, and the gap before it. -/
structure Cut where
  gap : List Char
  start : Cursor
  fit : Fit

def Cut.found (cut : Cut) : List Char := cut.start.upTo cut.fit.cursor

namespace Pattern

/-- The fewest characters that a fit takes. -/
def least : Pattern → Nat
  | .one _ => 1
  | .edge | .maybe _ | .many _ _ => 0
  | .seq p q => p.least + q.least
  | .capture _ part => part.least

/-- The best fits of a pattern one after another, and the text behind the last. The pattern fits at
no place in a gap. -/
inductive Cuts (p : Pattern) : Cursor → List Cut → List Char → Prop where
  | last (c : Cursor) (free : ∀ n ≤ c.after.length, p.FailsAt (c.past n)) : Cuts p c [] c.after
  | next (c : Cursor) (gap rest : List Char) (fit : Fit) (cuts : List Cut) (last : List Char)
    (split : c.after = gap ++ rest) (free : ∀ n < gap.length, p.FailsAt (c.past n))
    (best : p.IsBest ⟨c.past gap.length, []⟩ fit) (more : Cuts p fit.cursor cuts last) :
    Cuts p c (⟨gap, c.past gap.length, fit⟩ :: cuts) last

theorem Repeats.reaches {wish : Preference} {kind : CharClass} {c stop : Cursor}
    {turns : List Turn} (repeats : Repeats wish kind c turns stop) : c.Reaches stop := by
  induction repeats with
  | stop c => exact .refl c
  | take _ _ ih => exact (Cursor.Reaches.take _ _ _).trans ih

variable {p : Pattern} {start fit done : Fit} {turns : List Turn}

theorem Fits.reaches (fits : p.Fits start turns done) : start.cursor.Reaches done.cursor := by
  induction fits with
  | one => exact .take _ _ _
  | edge | absent => exact .refl _
  | seq _ _ first second => exact first.trans second
  | present _ ih | capture _ ih => exact ih
  | many repeats => exact repeats.reaches

theorem Fits.least_le (fits : p.Fits start turns done) :
    done.cursor.after.length + p.least ≤ start.cursor.after.length := by
  induction fits with
  | one =>
    simp only [least, List.length_cons]
    omega
  | edge | absent => exact Nat.le_refl _
  | seq _ _ first second =>
    simp only [least]
    omega
  | present fits _ => exact fits.reaches.length_le
  | many repeats => exact repeats.reaches.length_le
  | capture _ ih => exact ih

/-- What a fit remembers stands between the place where it starts and the place where it ends. -/
theorem Fits.captured (fits : p.Fits start turns done) : ∃ new,
    done.captures = new ++ start.captures ∧ ∀ capture ∈ new,
      start.cursor.Reaches capture.2.1 ∧ capture.2.1.Reaches capture.2.2 ∧
        capture.2.2.Reaches done.cursor := by
  induction fits with
  | one | edge | absent | many => exact ⟨[], rfl, fun _ member => by cases member⟩
  | present _ ih => exact ih
  | seq first second ih ih' =>
    -- what the second part remembers stands behind the first part
    obtain ⟨new, same, within⟩ := ih
    obtain ⟨more, same', within'⟩ := ih'
    refine ⟨more ++ new, by rw [same', same, List.append_assoc], fun capture listed => ?_⟩
    rcases List.mem_append.mp listed with later | earlier
    · obtain ⟨begins, proper, ends⟩ := within' capture later
      exact ⟨first.reaches.trans begins, proper, ends⟩
    · obtain ⟨begins, proper, ends⟩ := within capture earlier
      exact ⟨begins, proper, ends.trans second.reaches⟩
  | capture fits ih =>
    obtain ⟨new, same, within⟩ := ih
    refine ⟨_ :: new, by rw [same]; rfl, fun capture listed => ?_⟩
    rcases List.mem_cons.mp listed with rfl | earlier
    · exact ⟨.refl _, fits.reaches, .refl _⟩
    · exact within capture earlier

theorem IsBest.reaches {c : Cursor} (best : p.IsBest ⟨c, []⟩ fit) : c.Reaches fit.cursor := by
  obtain ⟨turns, fits, -⟩ := best
  exact fits.reaches

/-- A text is the gaps and what was found between them, in order. -/
theorem Cuts.whole {c : Cursor} {cuts : List Cut} {last : List Char} (cut : p.Cuts c cuts last) :
    cuts.flatMap (fun cut => cut.gap ++ cut.found) ++ last = c.after := by
  induction cut with
  | last => rfl
  | next c gap rest fit cuts last split free best _ ih =>
    have behind : (c.past gap.length).after = rest := by
      rw [Cursor.past, split, List.drop_left]
    rw [List.flatMap_cons, List.append_assoc, ih, Cut.found, List.append_assoc,
      best.reaches.upTo_append, behind, split]

/-- A character at which the pattern does not fit goes to the gap behind it. -/
theorem Cuts.cons {before : List Char} {a : Char} {rest : List Char} {cuts : List Cut}
    {last : List Char} (fails : p.FailsAt ⟨before, a :: rest⟩)
    (cut : p.Cuts ⟨a :: before, rest⟩ cuts last) :
    ∃ cuts last, p.Cuts ⟨before, a :: rest⟩ cuts last := by
  have free (size : Nat) (later : ∀ n < size, p.FailsAt (Cursor.past ⟨a :: before, rest⟩ n)) :
      ∀ n < 1 + size, p.FailsAt (Cursor.past ⟨before, a :: rest⟩ n) := by
    intro n within
    cases n with
    | zero => exact fails
    | succ n =>
      rw [Nat.add_comm, ← Cursor.past_past, Cursor.past_one]
      exact later n (by omega)
  cases cut with
  | last _ free' =>
    refine ⟨[], a :: rest, .last ⟨before, a :: rest⟩ fun n within => ?_⟩
    rw [List.length_cons] at within
    exact free (rest.length + 1) (fun n within => free' n (Nat.le_of_lt_succ within)) n (by omega)
  | next _ gap behind fit cuts _ split free' best more =>
    have length : (a :: gap).length = 1 + gap.length := by rw [List.length_cons, Nat.add_comm]
    refine ⟨_, _, .next _ (a :: gap) behind fit cuts last (congrArg (a :: ·) split) ?_ ?_ more⟩
    · rw [length]
      exact free gap.length free'
    · rwa [length, ← Cursor.past_past, Cursor.past_one]

end Pattern

namespace RewriteRule

/-- What a rule makes of a text that is cut: the gaps are kept, and the fits between them are
replaced. -/
def fill (rule : RewriteRule) (cuts : List Cut) (last : List Char) : List Char :=
  cuts.flatMap (fun cut => cut.gap ++ cut.fit.fill rule.replacement) ++ last

variable {rule : RewriteRule}

theorem applyFrom_of_fails (before : List Char) (a : Char) (rest : List Char)
    (fails : rule.pattern.FailsAt ⟨before, a :: rest⟩) :
    rule.applyFrom before (a :: rest) = a :: rule.applyFrom (a :: before) rest := by
  rw [applyFrom, (rule.pattern.fitAt?_eq_none_iff _).mpr fails]

theorem applyFrom_of_best (takes : 0 < rule.pattern.least) (c : Cursor) (fit : Fit)
    (best : rule.pattern.IsBest ⟨c, []⟩ fit) : rule.applyFrom c.before c.after =
      fit.fill rule.replacement ++ rule.applyFrom fit.cursor.before fit.cursor.after := by
  have found := (rule.pattern.fitAt?_eq_some_iff c fit).mpr best
  obtain ⟨turns, fits, -⟩ := best
  have shorter := fits.least_le
  obtain ⟨before, after⟩ := c
  cases after with
  | nil =>
    simp only [List.length_nil] at shorter
    omega
  | cons a rest =>
    simp only [List.length_cons] at shorter
    rw [applyFrom, found]
    exact if_pos (by omega)

/-- A gap is kept. -/
theorem applyFrom_gap (gap rest : List Char) (before : List Char)
    (free : ∀ n < gap.length, rule.pattern.FailsAt (Cursor.past ⟨before, gap ++ rest⟩ n)) :
    rule.applyFrom before (gap ++ rest) = gap ++ rule.applyFrom (gap.reverse ++ before) rest := by
  induction gap generalizing before with
  | nil => rfl
  | cons a gap ih =>
    have later (n : Nat) (within : n < gap.length) :
        rule.pattern.FailsAt (Cursor.past ⟨a :: before, gap ++ rest⟩ n) := by
      have fails := free (1 + n) (by rw [List.length_cons]; omega)
      rwa [List.cons_append, ← Cursor.past_past, Cursor.past_one] at fails
    rw [List.cons_append, applyFrom_of_fails before a (gap ++ rest) (free 0 (Nat.succ_pos _)),
      ih (a :: before) later, List.cons_append, List.reverse_cons, List.append_assoc]
    rfl

theorem applyFrom_nil (before : List Char) : rule.applyFrom before [] = [] := by
  rw [applyFrom]

/-- A rule keeps a text that comes before another one, wherever it stands. -/
def Keeps (rule : RewriteRule) (text rest : List Char) : Prop :=
  ∀ before, rule.applyFrom before (text ++ rest) =
    text ++ rule.applyFrom (text.reverse ++ before) rest

/-- A text is kept if the pattern fits at none of its places. -/
theorem keeps_of_free {text rest : List Char} (fails : ∀ before front back,
    text = front ++ back → back ≠ [] →
    rule.pattern.FailsAt ⟨front.reverse ++ before, back ++ rest⟩) : rule.Keeps text rest := by
  intro before
  refine applyFrom_gap text rest before fun n within => ?_
  rw [Cursor.past]
  dsimp only
  rw [List.take_append_of_le_length (Nat.le_of_lt within),
    List.drop_append_of_le_length (Nat.le_of_lt within)]
  exact fails _ _ _ (List.take_append_drop n text).symm (by simpa using within)

theorem keeps_of_fails {text rest : List Char} (fails : ∀ back, back <:+ text → back ≠ [] →
    ∀ before, rule.pattern.FailsAt ⟨before, back ++ rest⟩) : rule.Keeps text rest :=
  keeps_of_free fun _ front back cut nonempty => fails back ⟨front, cut.symm⟩ nonempty _

theorem Keeps.append {xs ys rest : List Char} (first : rule.Keeps xs (ys ++ rest))
    (second : rule.Keeps ys rest) : rule.Keeps (xs ++ ys) rest := by
  intro before
  rw [List.append_assoc, first, second, List.reverse_append, List.append_assoc, List.append_assoc]

theorem Keeps.applyFrom_eq {text : List Char} (keeps : rule.Keeps text []) (before : List Char) :
    rule.applyFrom before text = text := by
  have kept := keeps before
  rwa [applyFrom_nil, List.append_nil] at kept

end RewriteRule

end Workbench
