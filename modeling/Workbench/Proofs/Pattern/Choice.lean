import Workbench.Pattern.Rewrite

/-! Fits of a pattern, told by the turns that lead to them. The fit that a search finds is the one
whose turns are preferred to those of all others, and a search that finds none shows that there is
none. -/
namespace Workbench

/-- One of two ways to go on. -/
inductive Turn where
  | preferred
  | other
  deriving DecidableEq, Repr

namespace Preference

def onTake : Preference → Turn
  | .more => .preferred
  | .fewer => .other

def onStop : Preference → Turn
  | .more => .other
  | .fewer => .preferred

end Preference

/-- Whether turns are preferred to others: where the two first differ, they go the preferred way. -/
inductive Ahead : List Turn → List Turn → Prop where
  | here (rest rest' : List Turn) : Ahead (.preferred :: rest) (.other :: rest')
  | later (turn : Turn) {turns turns' : List Turn} (ahead : Ahead turns turns') :
    Ahead (turn :: turns) (turn :: turns')

namespace Ahead

theorem asymm {turns turns' : List Turn} (ahead : Ahead turns turns') : ¬Ahead turns' turns := by
  induction ahead with
  | here => rintro ⟨⟩
  | later turn _ ih =>
    intro behind
    cases behind with
    | later _ behind => exact ih behind

theorem append {turns turns' : List Turn} (ahead : Ahead turns turns') (more more' : List Turn) :
    Ahead (turns ++ more) (turns' ++ more') := by
  induction ahead with
  | here rest rest' => exact .here (rest ++ more) (rest' ++ more')
  | later turn _ ih => exact .later turn ih

theorem append_left (front : List Turn) {turns turns' : List Turn} (ahead : Ahead turns turns') :
    Ahead (front ++ turns) (front ++ turns') := by
  induction front with
  | nil => exact ahead
  | cons turn front ih => exact .later turn ih

end Ahead

namespace Pattern

/-- A repetition takes characters of a class one by one, and may stop before each of them. -/
inductive Repeats (wish : Preference) (kind : CharClass) : Cursor → List Turn → Cursor → Prop where
  | stop (c : Cursor) : Repeats wish kind c [wish.onStop] c
  | take {before : List Char} {c : Char} {rest : List Char} {turns : List Turn} {stop : Cursor}
    (member : kind.has c = true) (further : Repeats wish kind ⟨c :: before, rest⟩ turns stop) :
    Repeats wish kind ⟨before, c :: rest⟩ (wish.onTake :: turns) stop

/-- A pattern fits from a place on, by turns that lead to where the fit ends. -/
inductive Fits : Pattern → Fit → List Turn → Fit → Prop where
  | one {kind : CharClass} {before : List Char} {c : Char} {rest : List Char}
    {captures : List (Nat × Cursor × Cursor)} (member : kind.has c = true) :
    Fits (.one kind) ⟨⟨before, c :: rest⟩, captures⟩ [] ⟨⟨c :: before, rest⟩, captures⟩
  | edge {fit : Fit} (atEdge : fit.cursor.atEdge = true) : Fits .edge fit [] fit
  | seq {p q : Pattern} {fit mid done : Fit} {turns more : List Turn}
    (first : Fits p fit turns mid) (second : Fits q mid more done) :
    Fits (.seq p q) fit (turns ++ more) done
  | present {part : Pattern} {fit done : Fit} {turns : List Turn}
    (fits : Fits part fit turns done) : Fits (.maybe part) fit (.preferred :: turns) done
  | absent (part : Pattern) (fit : Fit) : Fits (.maybe part) fit [.other] fit
  | many {wish : Preference} {kind : CharClass} {fit : Fit} {turns : List Turn} {stop : Cursor}
    (repeats : Repeats wish kind fit.cursor turns stop) :
    Fits (.many wish kind) fit turns { fit with cursor := stop }
  | capture {number : Nat} {part : Pattern} {fit done : Fit} {turns : List Turn}
    (fits : Fits part fit turns done) :
    Fits (.capture number part) fit turns
      { done with captures := (number, fit.cursor, done.cursor) :: done.captures }

/-- The fit of a pattern whose turns are preferred to those of every other fit. -/
def IsBest (p : Pattern) (start fit : Fit) : Prop :=
  ∃ turns, p.Fits start turns fit ∧
    ∀ turns' fit', p.Fits start turns' fit' → turns' = turns ∨ Ahead turns turns'

/-- A pattern that does not fit at a place. -/
def FailsAt (p : Pattern) (c : Cursor) : Prop := ∀ turns fit, ¬p.Fits ⟨c, []⟩ turns fit

/-- The ways of a repetition with their turns, the preferred ones first. -/
def repeatWays (wish : Preference) (kind : CharClass) (before : List Char) :
    List Char → List (List Turn × Cursor)
  | [] => [([wish.onStop], ⟨before, []⟩)]
  | c :: rest =>
    if kind.has c then
      let further := (repeatWays wish kind (c :: before) rest).map fun (turns, stop) =>
        (wish.onTake :: turns, stop)
      match wish with
      | .more => further ++ [([.other], ⟨before, c :: rest⟩)]
      | .fewer => ([.preferred], ⟨before, c :: rest⟩) :: further
    else [([wish.onStop], ⟨before, c :: rest⟩)]

/-- The ways to fit a pattern with their turns, the preferred ones first. -/
def ways : Pattern → Fit → List (List Turn × Fit)
  | .one kind, fit =>
    match fit.cursor.after with
    | c :: rest =>
      if kind.has c then [([], { fit with cursor := ⟨c :: fit.cursor.before, rest⟩ })] else []
    | [] => []
  | .edge, fit => if fit.cursor.atEdge then [([], fit)] else []
  | .seq p q, fit =>
    (p.ways fit).flatMap fun (turns, mid) => (q.ways mid).map fun (more, done) =>
      (turns ++ more, done)
  | .maybe part, fit =>
    (part.ways fit).map (fun (turns, done) => (.preferred :: turns, done)) ++ [([.other], fit)]
  | .many wish kind, fit =>
    (repeatWays wish kind fit.cursor.before fit.cursor.after).map fun (turns, c) =>
      (turns, { fit with cursor := c })
  | .capture number part, fit =>
    (part.ways fit).map fun (turns, done) =>
      (turns, { done with captures := (number, fit.cursor, done.cursor) :: done.captures })

theorem runs_eq (wish : Preference) (kind : CharClass) (before after : List Char) :
    runs wish kind before after = (repeatWays wish kind before after).map Prod.snd := by
  induction after generalizing before with
  | nil => rfl
  | cons c rest ih =>
    unfold runs repeatWays
    split
    · cases wish <;> simp [ih]
    · rfl

theorem outcomes_eq (p : Pattern) (fit : Fit) : p.outcomes fit = (p.ways fit).map Prod.snd := by
  induction p generalizing fit with
  | one kind =>
    unfold outcomes ways
    cases fit.cursor.after with
    | nil => rfl
    | cons c rest => dsimp only; split <;> rfl
  | edge => unfold outcomes ways; split <;> rfl
  | seq p q ihp ihq =>
    -- both sides go through the ways of the first part, and for each through those of the second
    simp only [outcomes, ways, ihp, List.map_flatMap, List.flatMap_map, List.map_map]
    congr 1
    funext way
    rw [ihq]
    rfl
  | maybe part ih => simp [outcomes, ways, ih]
  | many wish kind => simp [outcomes, ways, runs_eq]
  | capture number part ih => simp [outcomes, ways, ih]

theorem repeats_of_mem_repeatWays (wish : Preference) (kind : CharClass) (before after : List Char)
    (turns : List Turn) (stop : Cursor) (listed : (turns, stop) ∈ repeatWays wish kind before after) :
    Repeats wish kind ⟨before, after⟩ turns stop := by
  induction after generalizing before turns with
  | nil =>
    cases List.mem_singleton.mp listed
    exact .stop _
  | cons c rest ih =>
    -- further ways stand before the stop or behind it, as is wished
    have taken (turns : List Turn) (member : kind.has c = true)
        (further : ∃ way ∈ repeatWays wish kind (c :: before) rest,
          (wish.onTake :: way.1, way.2) = (turns, stop)) :
        Repeats wish kind ⟨before, c :: rest⟩ turns stop := by
      obtain ⟨way, inside, same⟩ := further
      cases same
      exact .take member (ih _ _ inside)
    unfold repeatWays at listed
    split at listed
    next member =>
      cases wish with
      | more =>
        rcases List.mem_append.mp listed with further | last
        · exact taken turns member (List.mem_map.mp further)
        · cases List.mem_singleton.mp last
          exact .stop _
      | fewer =>
        rcases List.mem_cons.mp listed with first | further
        · cases first
          exact .stop _
        · exact taken turns member (List.mem_map.mp further)
    next =>
      cases List.mem_singleton.mp listed
      exact .stop _

theorem mem_repeatWays_of_repeats {wish : Preference} {kind : CharClass} {start stop : Cursor}
    {turns : List Turn} (repeats : Repeats wish kind start turns stop) :
    (turns, stop) ∈ repeatWays wish kind start.before start.after := by
  induction repeats with
  | stop start =>
    obtain ⟨before, after⟩ := start
    unfold repeatWays
    cases after with
    | nil => exact List.mem_singleton_self _
    | cons c rest => cases wish <;> (dsimp only; split <;> simp [Preference.onStop])
  | @take _ c rest turns _ member _ ih =>
    have further : (wish.onTake :: turns, _) ∈ (repeatWays wish kind (c :: _) rest).map
        fun (turns, stop) => (wish.onTake :: turns, stop) := List.mem_map_of_mem ih
    unfold repeatWays
    rw [if_pos member]
    cases wish with
    | more => exact List.mem_append_left _ further
    | fewer => exact List.mem_cons_of_mem _ further

theorem mem_repeatWays_iff (wish : Preference) (kind : CharClass) (before after : List Char)
    (turns : List Turn) (stop : Cursor) :
    (turns, stop) ∈ repeatWays wish kind before after ↔
      Repeats wish kind ⟨before, after⟩ turns stop :=
  ⟨repeats_of_mem_repeatWays wish kind before after turns stop, mem_repeatWays_of_repeats⟩

theorem fits_of_mem_ways (p : Pattern) (fit done : Fit) (turns : List Turn)
    (listed : (turns, done) ∈ p.ways fit) : p.Fits fit turns done := by
  induction p generalizing fit done turns with
  | one kind =>
    obtain ⟨⟨before, after⟩, captures⟩ := fit
    cases after with
    | nil => cases listed
    | cons c rest =>
      simp only [ways] at listed
      split at listed
      next member =>
        cases List.mem_singleton.mp listed
        exact .one member
      next => cases listed
  | edge =>
    unfold ways at listed
    split at listed
    next atEdge =>
      cases List.mem_singleton.mp listed
      exact .edge atEdge
    next => cases listed
  | seq p q ihp ihq =>
    obtain ⟨⟨front, mid⟩, first, later⟩ := List.mem_flatMap.mp listed
    obtain ⟨⟨more, last⟩, second, same⟩ := List.mem_map.mp later
    cases same
    exact .seq (ihp _ _ _ first) (ihq _ _ _ second)
  | maybe part ih =>
    rcases List.mem_append.mp listed with present | last
    · obtain ⟨⟨front, mid⟩, first, same⟩ := List.mem_map.mp present
      cases same
      exact .present (ih _ _ _ first)
    · cases List.mem_singleton.mp last
      exact .absent part fit
  | many wish kind =>
    obtain ⟨⟨front, stop⟩, first, same⟩ := List.mem_map.mp listed
    cases same
    exact .many ((mem_repeatWays_iff wish kind _ _ _ _).mp first)
  | capture number part ih =>
    obtain ⟨⟨front, mid⟩, first, same⟩ := List.mem_map.mp listed
    cases same
    exact .capture (ih _ _ _ first)

theorem mem_ways_of_fits {p : Pattern} {fit done : Fit} {turns : List Turn}
    (fits : p.Fits fit turns done) : (turns, done) ∈ p.ways fit := by
  induction fits with
  | one member => simp [ways, member]
  | edge atEdge => simp [ways, atEdge]
  | seq _ _ first second =>
    exact List.mem_flatMap.mpr ⟨_, first, List.mem_map.mpr ⟨_, second, rfl⟩⟩
  | present _ ih => exact List.mem_append_left _ (List.mem_map.mpr ⟨_, ih, rfl⟩)
  | absent => exact List.mem_append_right _ (List.mem_singleton_self _)
  | many repeats =>
    exact List.mem_map.mpr ⟨_, (mem_repeatWays_iff _ _ _ _ _ _).mpr repeats, rfl⟩
  | capture _ ih => exact List.mem_map.mpr ⟨_, ih, rfl⟩

theorem mem_ways_iff (p : Pattern) (fit done : Fit) (turns : List Turn) :
    (turns, done) ∈ p.ways fit ↔ p.Fits fit turns done :=
  ⟨fits_of_mem_ways p fit done turns, mem_ways_of_fits⟩

theorem repeatWays_pairwise (wish : Preference) (kind : CharClass) (before after : List Char) :
    (repeatWays wish kind before after).Pairwise fun way way' => Ahead way.1 way'.1 := by
  induction after generalizing before with
  | nil => exact List.pairwise_singleton _ _
  | cons c rest ih =>
    unfold repeatWays
    split
    next =>
      have further : ((repeatWays wish kind (c :: before) rest).map fun (turns, stop) =>
          (wish.onTake :: turns, stop)).Pairwise fun way way' => Ahead way.1 way'.1 :=
        List.pairwise_map.mpr ((ih (c :: before)).imp fun ahead => .later wish.onTake ahead)
      cases wish with
      | more =>
        refine List.pairwise_append.mpr ⟨further, List.pairwise_singleton _ _, ?_⟩
        intro way taken last stopped
        obtain ⟨_, -, rfl⟩ := List.mem_map.mp taken
        cases List.mem_singleton.mp stopped
        exact .here _ _
      | fewer =>
        refine List.pairwise_cons.mpr ⟨fun way taken => ?_, further⟩
        obtain ⟨_, -, rfl⟩ := List.mem_map.mp taken
        exact .here _ _
    next => exact List.pairwise_singleton _ _

/-- The ways to fit a pattern are listed in the order of preference. -/
theorem ways_pairwise (p : Pattern) (fit : Fit) :
    (p.ways fit).Pairwise fun way way' => Ahead way.1 way'.1 := by
  induction p generalizing fit with
  | one kind =>
    unfold ways
    split
    · split
      · exact List.pairwise_singleton _ _
      · exact .nil
    · exact .nil
  | edge =>
    unfold ways
    split
    · exact List.pairwise_singleton _ _
    · exact .nil
  | seq p q ihp ihq =>
    refine List.pairwise_flatMap.mpr ⟨fun way _ => ?_, (ihp fit).imp fun ahead => ?_⟩
    · exact List.pairwise_map.mpr ((ihq way.2).imp fun ahead => ahead.append_left way.1)
    · -- what the first part prefers outweighs the choices of the second
      intro way first way' second
      obtain ⟨_, -, rfl⟩ := List.mem_map.mp first
      obtain ⟨_, -, rfl⟩ := List.mem_map.mp second
      exact ahead.append _ _
  | maybe part ih =>
    refine List.pairwise_append.mpr ⟨?_, List.pairwise_singleton _ _, ?_⟩
    · exact List.pairwise_map.mpr ((ih fit).imp fun ahead => .later .preferred ahead)
    · intro way present last absent
      obtain ⟨_, -, rfl⟩ := List.mem_map.mp present
      cases List.mem_singleton.mp absent
      exact .here _ _
  | many wish kind => exact List.pairwise_map.mpr (repeatWays_pairwise wish kind _ _)
  | capture number part ih => exact List.pairwise_map.mpr (ih fit)

theorem fitAt?_eq_head? (p : Pattern) (c : Cursor) :
    p.fitAt? c = (p.ways ⟨c, []⟩).head?.map Prod.snd := by
  rw [fitAt?, first_eq, outcomes_eq, List.findSome?_map]
  cases p.ways ⟨c, []⟩ <;> rfl

theorem fitAt?_eq_none_iff (p : Pattern) (c : Cursor) : p.fitAt? c = none ↔ p.FailsAt c := by
  rw [fitAt?_eq_head?, Option.map_eq_none_iff, List.head?_eq_none_iff]
  constructor
  · intro empty turns fit fits
    have listed := (mem_ways_iff p _ _ _).mpr fits
    rw [empty] at listed
    cases listed
  · intro fails
    refine List.eq_nil_iff_forall_not_mem.mpr fun way listed => ?_
    exact fails way.1 way.2 ((mem_ways_iff p _ _ _).mp listed)

/-- The fit that is found is the one that is preferred to all others. -/
theorem fitAt?_eq_some_iff (p : Pattern) (c : Cursor) (fit : Fit) :
    p.fitAt? c = some fit ↔ p.IsBest ⟨c, []⟩ fit := by
  have sorted := p.ways_pairwise ⟨c, []⟩
  rw [fitAt?_eq_head?]
  constructor
  · -- the first of the ways is ahead of all others
    intro found
    obtain ⟨⟨turns, done⟩, first, same⟩ := Option.map_eq_some_iff.mp found
    cases same
    obtain ⟨more, listed⟩ := List.head?_eq_some_iff.mp first
    rw [listed] at sorted
    refine ⟨turns, (mem_ways_iff p _ _ _).mp (listed ▸ List.mem_cons_self), ?_⟩
    intro turns' fit' fits
    have member := (mem_ways_iff p _ _ _).mpr fits
    rw [listed] at member
    rcases List.mem_cons.mp member with same | later
    · cases same
      exact .inl rfl
    · exact .inr ((List.pairwise_cons.mp sorted).1 _ later)
  · rintro ⟨turns, fits, best⟩
    have member := (mem_ways_iff p _ _ _).mpr fits
    cases listed : p.ways ⟨c, []⟩ with
    | nil =>
      rw [listed] at member
      cases member
    | cons way more =>
      rw [listed] at member sorted
      rcases List.mem_cons.mp member with same | later
      · cases same
        rfl
      · -- the first way would be preferred to the best one
        have ahead := (List.pairwise_cons.mp sorted).1 _ later
        have first := (mem_ways_iff p _ _ _).mp (listed ▸ List.mem_cons_self : way ∈ _)
        rcases best way.1 way.2 first with same | behind
        · rw [same] at ahead
          exact absurd ahead ahead.asymm
        · exact absurd behind ahead.asymm

end Pattern

end Workbench
