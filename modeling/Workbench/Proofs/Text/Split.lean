import Workbench.Text.Basic

/-! Cutting at a separator undoes joining with it, and no piece holds the separator. A needle is found
at its first place, which is behind whatever it begins nowhere in. -/
namespace Workbench.Text

theorem splitAt_of_notMem (sep : Char) (piece : List Char) (free : sep ∉ piece) :
    splitAt sep piece = [piece] := by
  induction piece with
  | nil => rfl
  | cons c rest ih =>
    simp only [List.mem_cons, not_or] at free
    rw [splitAt, if_neg (Ne.symm free.1), ih free.2]

/-- A separator cuts whatever stands before it from whatever stands after it. -/
theorem splitAt_append (sep : Char) (before after : List Char) :
    splitAt sep (before ++ sep :: after) = splitAt sep before ++ splitAt sep after := by
  induction before with
  | nil => simp [splitAt]
  | cons c more ih =>
    rw [List.cons_append, splitAt, splitAt, ih]
    split
    · rfl
    next =>
      cases eq : splitAt sep more with
      | nil => exact absurd eq (splitAt_ne_nil sep more)
      | cons piece pieces => rfl

theorem joinWith_cons (sep piece : List Char) (pieces : List (List Char)) :
    joinWith sep (piece :: pieces) = piece ++ pieces.flatMap (sep ++ ·) := by
  induction pieces generalizing piece with
  | nil => simp [joinWith]
  | cons next rest ih => simp [joinWith, ih]

/-- Pieces without the separator are found again in what they were joined to. -/
theorem splitAt_joinWith (sep : Char) (pieces : List (List Char)) (nonempty : pieces ≠ [])
    (free : ∀ piece ∈ pieces, sep ∉ piece) : splitAt sep (joinWith [sep] pieces) = pieces := by
  induction pieces with
  | nil => exact absurd rfl nonempty
  | cons piece more ih =>
    have first : sep ∉ piece := free piece List.mem_cons_self
    cases more with
    | nil => exact splitAt_of_notMem sep piece first
    | cons next more =>
      have others := ih (by simp) fun p member => free p (List.mem_cons_of_mem _ member)
      have joined : joinWith [sep] (piece :: next :: more) =
          piece ++ sep :: joinWith [sep] (next :: more) := by
        simp [joinWith]
      rw [joined, splitAt_append, splitAt_of_notMem sep piece first, others, List.singleton_append]

/-- Only a separator in front cuts off an empty piece. -/
theorem eq_nil_or_head?_of_splitAt (sep : Char) (cs : List Char)
    (empty : (splitAt sep cs).head? = some []) : cs = [] ∨ cs.head? = some sep := by
  cases cs with
  | nil => exact .inl rfl
  | cons c rest =>
    right
    rw [splitAt] at empty
    split at empty
    next same => simp [same]
    next =>
      cases cut : splitAt sep rest with
      | nil => exact absurd cut (splitAt_ne_nil sep rest)
      | cons piece more => simp [cut] at empty

/-- The pieces are made of what was cut, without the separator. -/
theorem mem_of_mem_splitAt (sep : Char) (cs piece : List Char) (listed : piece ∈ splitAt sep cs) :
    ∀ c ∈ piece, c ∈ cs ∧ c ≠ sep := by
  induction cs generalizing piece with
  | nil => simp_all [splitAt]
  | cons first rest ih =>
    rw [splitAt] at listed
    split at listed
    · rcases List.mem_cons.mp listed with rfl | later
      · simp
      · exact fun c member => ⟨List.mem_cons_of_mem _ (ih piece later c member).1,
          (ih piece later c member).2⟩
    next other =>
      cases cut : splitAt sep rest with
      | nil => exact absurd cut (splitAt_ne_nil sep rest)
      | cons next more =>
        simp only [cut, List.mem_cons] at listed
        rcases listed with rfl | later
        · intro c member
          rcases List.mem_cons.mp member with rfl | inside
          · exact ⟨List.mem_cons_self, other⟩
          · have found := ih next (by simp [cut]) c inside
            exact ⟨List.mem_cons_of_mem _ found.1, found.2⟩
        · intro c member
          have found := ih piece (by simp [cut, later]) c member
          exact ⟨List.mem_cons_of_mem _ found.1, found.2⟩

/-- What stands in a text up to its last separator, and behind it. -/
theorem exists_last_cut (sep : Char) (cs : List Char) :
    ∃ front back, cs = front ++ back ∧ sep ∉ back ∧ (front = [] ∨ front.getLast? = some sep) := by
  by_cases member : sep ∈ cs
  · obtain ⟨back, front, same, free⟩ := List.eq_append_cons_of_mem (List.mem_reverse.mpr member)
    refine ⟨front.reverse ++ [sep], back.reverse, ?_, by simpa using free, .inr (by simp)⟩
    simpa using congrArg List.reverse same
  · exact ⟨[], cs, rfl, member, .inl rfl⟩

/-- What stands in a text up to its first separator, and from there on. -/
theorem exists_first_cut (sep : Char) (cs : List Char) :
    ∃ front back, cs = front ++ back ∧ sep ∉ front ∧ (back = [] ∨ back.head? = some sep) := by
  by_cases member : sep ∈ cs
  · obtain ⟨front, back, same, free⟩ := List.eq_append_cons_of_mem member
    exact ⟨front, sep :: back, same, free, .inr rfl⟩
  · exact ⟨cs, [], by simp, member, .inl rfl⟩

/-- A piece is what stands between two neighbouring separators, or an end of the text. -/
theorem mem_splitAt_iff (sep : Char) (cs piece : List Char) : piece ∈ splitAt sep cs ↔
    sep ∉ piece ∧ ∃ front back, cs = front ++ piece ++ back ∧
      (front = [] ∨ front.getLast? = some sep) ∧ (back = [] ∨ back.head? = some sep) := by
  constructor
  · intro listed
    refine ⟨fun member => (mem_of_mem_splitAt sep cs piece listed sep member).2 rfl, ?_⟩
    have joined := joinWith_splitAt sep cs
    generalize splitAt sep cs = pieces at listed joined
    induction pieces generalizing cs with
    | nil => cases listed
    | cons first more ih =>
      cases more with
      | nil =>
        obtain rfl := List.mem_singleton.mp listed
        exact ⟨[], [], by simpa [joinWith] using joined.symm, .inl rfl, .inl rfl⟩
      | cons next more =>
        have split : cs = first ++ sep :: joinWith [sep] (next :: more) := by
          simpa [joinWith] using joined.symm
        rcases List.mem_cons.mp listed with rfl | later
        · exact ⟨[], _, split, .inl rfl, .inr rfl⟩
        · obtain ⟨front, back, same, begins, ends⟩ := ih _ later rfl
          refine ⟨first ++ sep :: front, back, by simp [split, same], .inr ?_, ends⟩
          rcases begins with rfl | last
          · simp
          · simp [List.getLast?_append, List.getLast?_cons, last]
  · rintro ⟨free, front, back, rfl, begins, ends⟩
    have behind : piece ∈ splitAt sep (piece ++ back) := by
      rcases ends with rfl | head
      · rw [List.append_nil, splitAt_of_notMem sep piece free]
        exact List.mem_singleton_self piece
      · obtain ⟨rest, rfl⟩ := List.head?_eq_some_iff.mp head
        rw [splitAt_append, splitAt_of_notMem sep piece free]
        exact List.mem_append_left _ (List.mem_singleton_self piece)
    rcases begins with rfl | last
    · exact behind
    · obtain ⟨before, rfl⟩ := List.getLast?_eq_some_iff.mp last
      rw [List.append_assoc, List.append_assoc, List.singleton_append, splitAt_append]
      exact List.mem_append_right _ behind

/-- What is joined is made of the separator and the pieces. -/
theorem mem_joinWith (sep c : Char) (pieces : List (List Char)) (member : c ∈ joinWith [sep] pieces) :
    c = sep ∨ ∃ piece ∈ pieces, c ∈ piece := by
  induction pieces with
  | nil => simp [joinWith] at member
  | cons piece more ih =>
    cases more with
    | nil =>
      right
      exact ⟨piece, List.mem_cons_self, by simpa [joinWith] using member⟩
    | cons next more =>
      simp only [joinWith, List.mem_append, List.mem_singleton] at member
      rcases member with (here | same) | later
      · exact .inr ⟨piece, List.mem_cons_self, here⟩
      · exact .inl same
      · rcases ih later with same | ⟨found, listed, there⟩
        · exact .inl same
        · exact .inr ⟨found, List.mem_cons_of_mem _ listed, there⟩

theorem isPrefix_joinWith (sep : List Char) (front pieces : List (List Char))
    (begins : front <+: pieces) : joinWith sep front <+: joinWith sep pieces := by
  induction front generalizing pieces with
  | nil => exact List.nil_prefix
  | cons piece more ih =>
    obtain ⟨back, rfl⟩ := begins
    cases more with
    | nil =>
      cases back with
      | nil => exact List.prefix_rfl
      | cons next back =>
        simp only [List.cons_append, List.nil_append, joinWith, List.append_assoc]
        exact List.prefix_append _ _
    | cons next more =>
      have later := ih (next :: more ++ back) (List.prefix_append _ _)
      simpa [joinWith] using later

theorem cutAt?_self (needle back : List Char) : cutAt? needle (needle ++ back) = some ([], back) := by
  cases text : needle ++ back with
  | nil =>
    obtain ⟨rfl, rfl⟩ := List.append_eq_nil_iff.mp text
    rfl
  | cons c rest =>
    have begins : needle.isPrefixOf (c :: rest) = true := by simp [← text]
    rw [cutAt?, if_pos begins, ← text, List.drop_left]

/-- A needle that is in a text is found, and found no later than there. -/
theorem cutAt?_append (needle front back : List Char) :
    ∃ before after, cutAt? needle (front ++ needle ++ back) = some (before, after) ∧
      before ++ needle ++ after = front ++ needle ++ back ∧ back <:+ after := by
  induction front with
  | nil =>
    exact ⟨[], back, cutAt?_self needle back, rfl, List.suffix_rfl⟩
  | cons c more ih =>
    simp only [List.cons_append]
    rw [cutAt?]
    split
    next begins =>
      obtain ⟨after, same⟩ := List.isPrefixOf_iff_prefix.mp begins
      refine ⟨[], after, by rw [← same, List.drop_left], same, ?_⟩
      have outer : back <:+ needle ++ after := by
        rw [same]
        exact List.suffix_append (c :: (more ++ needle)) back
      have shorter : back.length ≤ after.length := by
        have lengths := congrArg List.length same
        simp only [List.length_cons, List.length_append] at lengths
        omega
      exact List.suffix_of_suffix_length_le outer (List.suffix_append _ _) shorter
    next =>
      obtain ⟨before, after, cut, whole, later⟩ := ih
      exact ⟨c :: before, after, by rw [cut, Option.map_some], by simp [← whole], later⟩

/-- Whether a needle begins nowhere in a front, whatever comes behind it. -/
def isFreeOf (needle : List Char) : List Char → Bool
  | [] => true
  | c :: rest =>
    !(needle.isPrefixOf (c :: rest) || (c :: rest).isPrefixOf needle) && isFreeOf needle rest

/-- What a needle does not begin with stands before it. -/
theorem cutAt?_cons (needle : List Char) (c : Char) (rest : List Char)
    (other : ¬needle <+: c :: rest) :
    cutAt? needle (c :: rest) =
      (cutAt? needle rest).map fun (before, after) => (c :: before, after) := by
  rw [cutAt?, if_neg]
  rwa [List.isPrefixOf_iff_prefix]

theorem cutAt?_of_isFreeOf (needle front back : List Char) (free : isFreeOf needle front = true) :
    cutAt? needle (front ++ back) =
      (cutAt? needle back).map fun (before, after) => (front ++ before, after) := by
  induction front with
  | nil => simp
  | cons c rest ih =>
    rw [isFreeOf, Bool.and_eq_true, Bool.not_eq_true', Bool.or_eq_false_iff] at free
    obtain ⟨⟨outside, inside⟩, later⟩ := free
    have other : ¬needle <+: c :: (rest ++ back) := by
      intro begins
      rcases List.prefix_or_prefix_of_prefix begins (List.prefix_append (c :: rest) back) with
        shorter | longer
      · rw [← List.isPrefixOf_iff_prefix, outside] at shorter
        cases shorter
      · rw [← List.isPrefixOf_iff_prefix, inside] at longer
        cases longer
    rw [List.cons_append, cutAt?_cons needle c _ other, ih later, Option.map_map]
    rfl

/-- A text without the second character of a needle stands before it, unless that character comes
next. -/
theorem cutAt?_of_notMem (first second : Char) (more front back : List Char)
    (free : second ∉ front) (next : back.head? ≠ some second) :
    cutAt? (first :: second :: more) (front ++ back) =
      (cutAt? (first :: second :: more) back).map fun (before, after) => (front ++ before, after) := by
  induction front with
  | nil => simp
  | cons c rest ih =>
    simp only [List.mem_cons, not_or] at free
    have other : ¬first :: second :: more <+: c :: (rest ++ back) := by
      rintro ⟨behind, same⟩
      obtain ⟨-, same⟩ := List.cons.inj same
      cases rest with
      | nil => exact next (by rw [← List.nil_append back, ← same]; rfl)
      | cons c' rest =>
        obtain ⟨rfl, -⟩ := List.cons.inj same
        exact free.2 List.mem_cons_self
    rw [List.cons_append, cutAt?_cons _ c _ other, ih free.2, Option.map_map]
    rfl

end Workbench.Text
