import Workbench.Proofs.Json.Scalar

/-! Values read back as they are written. Only fractions and strings that stand for no text are
written as something else. -/
namespace Workbench.Json

mutual

/-- Whether all that a value holds is told by its text. -/
def isTold : Json → Bool
  | .real => false
  | .string s => s.isSome
  | .array items => itemsTold items
  | .object members => membersTold members
  | .null | .bool _ | .whole _ => true

def itemsTold : List Json → Bool
  | [] => true
  | item :: rest => item.isTold && itemsTold rest

def membersTold : List (Option String × Json) → Bool
  | [] => true
  | (name, value) :: rest => name.isSome && value.isTold && membersTold rest

end

theorem value_number (c : Char) (s : List Char) (start : Text.StartsNumber c) (fuel : Nat) :
    value (fuel + 1) (c :: s) = number (c :: s) := by
  obtain ⟨solid, -, -, quote, bracket, brace, n, t, f⟩ := apart_of_number c start
  rw [value, skip_of_solid c s solid]
  simp only [quote, bracket, brace, n, t, f, if_false]

theorem value_array (s : List Char) (goesOn : (skip s).head? ≠ some ']') (fuel : Nat) :
    value (fuel + 1) ('[' :: s) = (value fuel s).bind fun (first, rest) =>
      (items fuel rest).bind fun (more, rest) => some (.array (first :: more), rest) := by
  rw [value, skip_of_solid '[' s rfl]
  simp only [Char.reduceEq, if_false, if_true]
  split
  next closed => simp [closed] at goesOn
  next => rfl

theorem value_object (s : List Char) (goesOn : (skip s).head? ≠ some '\x7d') (fuel : Nat) :
    value (fuel + 1) ('\x7b' :: s) = (member fuel s).bind fun (first, rest) =>
      (members fuel rest).bind fun (more, rest) => some (.object (first :: more), rest) := by
  rw [value, skip_of_solid '\x7b' s rfl]
  simp only [Char.reduceEq, if_false, if_true]
  split
  next closed => simp [closed] at goesOn
  next => rfl

/-- A value reads back, whatever follows it, if what follows does not go on with a number. -/
def ReadsBack (v : Json) : Prop :=
  ∀ level fuel rest, EndsNumber rest → (chars level v).length ≤ fuel →
    value fuel (chars level v ++ rest) = some (v, rest)

theorem endsNumber_newline (level : Nat) (s : List Char) : EndsNumber (newline level ++ s) :=
  .inr (.inr rfl)

theorem endsNumber_itemChars (level : Nat) (items : List Json) (s : List Char)
    (ends : EndsNumber s) : EndsNumber (itemChars level items ++ s) := by
  cases items with
  | nil => simpa [itemChars] using ends
  | cons item rest => exact .inr (.inl (by simp [itemChars]))

theorem endsNumber_memberChars (level : Nat) (members : List (Option String × Json))
    (s : List Char) (ends : EndsNumber s) : EndsNumber (memberChars level members ++ s) := by
  cases members with
  | nil => simpa [memberChars] using ends
  | cons first rest => exact .inr (.inl (by simp [memberChars]))

/-- A member of an object reads back if its value does. -/
theorem member_written (name : String) (v : Json) (back : ReadsBack v) (level fuel : Nat)
    (rest : List Char) (ends : EndsNumber rest) (enough : (chars level v).length < fuel) :
    member fuel (quote name ++ ": ".toList ++ chars level v ++ rest) =
      some ((some name, v), rest) := by
  obtain ⟨fuel, rfl⟩ := Nat.exists_eq_add_of_lt enough
  have text : quote name ++ ": ".toList ++ chars level v ++ rest =
      '"' :: (name.toList.flatMap escapeChar ++ '"' :: ':' :: ' ' :: (chars level v ++ rest)) := by
    simp [quote]
  have blank : value ((chars level v).length + fuel) (' ' :: (chars level v ++ rest)) =
      value ((chars level v).length + fuel) (chars level v ++ rest) := by
    obtain ⟨c, more, head, solid, -⟩ := chars_head v level
    rw [head, List.cons_append, List.length_cons, Nat.add_right_comm, value, value]
    rfl
  rw [text, member, skip_of_solid _ _ (by decide)]
  simp only [stringTail_quoted, Option.bind_eq_bind, Option.bind_some,
    skip_of_solid ':' _ (by decide), blank, back level _ rest ends (Nat.le_add_right _ fuel)]

/-- What is left of a value reads back in one step. -/
theorem readsBack_of (v : Json)
    (read : ∀ level fuel rest, EndsNumber rest → (chars level v).length ≤ fuel + 1 →
      value (fuel + 1) (chars level v ++ rest) = some (v, rest)) : ReadsBack v := by
  intro level fuel rest ends enough
  -- no value is written as nothing, so that there is a step to spend
  obtain ⟨c, more, head, -⟩ := chars_head v level
  have positive : 1 ≤ fuel := by
    rw [head, List.length_cons] at enough
    omega
  obtain ⟨fuel, rfl⟩ := Nat.exists_eq_add_of_le' positive
  exact read level fuel rest ends enough

theorem readsBack_word (v : Json) (w : String) (c : Char) (more : List Char)
    (written : ∀ level, chars level v = c :: more) (spelt : w.toList = c :: more)
    (reader : ∀ fuel rest, value (fuel + 1) (c :: more ++ rest) =
      word w v (c :: more ++ rest)) : ReadsBack v := by
  refine readsBack_of v fun level fuel rest _ _ => ?_
  have taken : w.toList.isPrefixOf (c :: more ++ rest) = true := by
    rw [spelt, List.isPrefixOf_iff_prefix]
    exact List.prefix_append _ _
  have length : w.length = (c :: more).length := by rw [← spelt, String.length_toList]
  rw [written, reader, word, if_pos taken, length, List.drop_left]

theorem readsBack_null : ReadsBack .null := by
  refine readsBack_word _ "null" 'n' "ull".toList (fun _ => by rw [chars]; rfl) rfl ?_
  intro fuel rest
  rw [value]
  rfl

theorem readsBack_bool (b : Bool) : ReadsBack (.bool b) := by
  cases b with
  | true =>
    refine readsBack_word _ "true" 't' "rue".toList (fun _ => by rw [chars]; rfl) rfl ?_
    intro fuel rest
    rw [value]
    rfl
  | false =>
    refine readsBack_word _ "false" 'f' "alse".toList (fun _ => by rw [chars]; rfl) rfl ?_
    intro fuel rest
    rw [value]
    rfl

theorem readsBack_string (s : String) : ReadsBack (.string (some s)) := by
  refine readsBack_of _ fun level fuel rest _ _ => ?_
  have text : chars level (.string (some s)) ++ rest =
      '"' :: (s.toList.flatMap escapeChar ++ '"' :: rest) := by simp [chars, quote]
  rw [text, value, skip_of_solid _ _ rfl]
  simp [stringTail_quoted]

theorem readsBack_whole (i : Int) : ReadsBack (.whole i) := by
  refine readsBack_of _ fun level fuel rest ends _ => ?_
  obtain ⟨c, more, written, start⟩ := Text.decimalInt_head i
  have read := number_written i rest ends
  rw [written, List.cons_append] at read
  rw [chars, written, List.cons_append, value_number c _ start, read]

/-- What is written behind the first item of an array reads back up to the end of the array. -/
def ItemsReadBack (list : List Json) : Prop :=
  ∀ level outer fuel rest, (itemChars level list).length < fuel →
    items fuel (itemChars level list ++ (newline outer ++ ']' :: rest)) = some (list, rest)

/-- What is written behind the first member of an object reads back up to the end of the object. -/
def MembersReadBack (list : List (Option String × Json)) : Prop :=
  ∀ level outer fuel rest, (memberChars level list).length < fuel →
    members fuel (memberChars level list ++ (newline outer ++ '\x7d' :: rest)) = some (list, rest)

theorem readsBack_emptyArray : ReadsBack (.array []) := by
  refine readsBack_of _ fun level fuel rest _ _ => ?_
  have text : chars level (.array []) ++ rest = '[' :: ']' :: rest := by simp [chars]
  rw [text, value, skip_of_solid _ _ rfl]
  simp [skip_of_solid ']' rest rfl]

theorem readsBack_array (item : Json) (list : List Json) (back : ReadsBack item)
    (others : ItemsReadBack list) : ReadsBack (.array (item :: list)) := by
  refine readsBack_of _ fun level fuel rest _ enough => ?_
  -- an item does not begin like the end of the list
  obtain ⟨c, more, head, solid, other, -⟩ := chars_head item (level + 1)
  have text : chars level (.array (item :: list)) ++ rest =
      '[' :: (newline (level + 1) ++ (chars (level + 1) item ++
        (itemChars (level + 1) list ++ (newline level ++ ']' :: rest)))) := by simp [chars]
  simp only [chars, List.length_append, List.length_cons] at enough
  have first := back (level + 1) fuel _
    (endsNumber_itemChars (level + 1) list _ (endsNumber_newline level (']' :: rest))) (by omega)
  have later := others (level + 1) level fuel rest (by omega)
  rw [text, value_array]
  · simp only [value_newline, first, later, Option.bind_some]
  · rw [skip_newline, head, List.cons_append, skip_of_solid _ _ solid]
    simpa using other

theorem readsBack_emptyObject : ReadsBack (.object []) := by
  refine readsBack_of _ fun level fuel rest _ _ => ?_
  have text : chars level (.object []) ++ rest = '\x7b' :: '\x7d' :: rest := by simp [chars]
  rw [text, value, skip_of_solid _ _ rfl]
  simp [skip_of_solid '\x7d' rest rfl]

theorem readsBack_object (name : String) (v : Json) (list : List (Option String × Json))
    (back : ReadsBack v) (others : MembersReadBack list) :
    ReadsBack (.object ((some name, v) :: list)) := by
  refine readsBack_of _ fun level fuel rest _ enough => ?_
  have text : chars level (.object ((some name, v) :: list)) ++ rest =
      '\x7b' :: (newline (level + 1) ++ (quote name ++ ": ".toList ++ chars (level + 1) v ++
        (memberChars (level + 1) list ++ (newline level ++ '\x7d' :: rest)))) := by simp [chars]
  simp only [chars, List.length_append, List.length_cons] at enough
  have first := member_written name v back (level + 1) fuel _
    (endsNumber_memberChars (level + 1) list _ (endsNumber_newline level ('\x7d' :: rest)))
    (by omega)
  have later := others (level + 1) level fuel rest (by omega)
  rw [text, value_object]
  · simp only [member_newline, first, later, Option.bind_some]
  · rw [skip_newline]
    simp [quote, skip_of_solid '"' _ rfl]

theorem itemsReadBack_nil : ItemsReadBack [] := by
  intro level outer fuel rest enough
  obtain ⟨fuel, rfl⟩ := Nat.exists_eq_add_of_lt enough
  simp [itemChars, items, skip_newline, skip_of_solid ']' rest rfl]

theorem itemsReadBack_cons (item : Json) (list : List Json) (back : ReadsBack item)
    (others : ItemsReadBack list) : ItemsReadBack (item :: list) := by
  intro level outer fuel rest enough
  obtain ⟨fuel, rfl⟩ := Nat.exists_eq_add_of_le' (Nat.one_le_of_lt enough)
  have text : itemChars level (item :: list) ++ (newline outer ++ ']' :: rest) =
      ',' :: (newline level ++ (chars level item ++
        (itemChars level list ++ (newline outer ++ ']' :: rest)))) := by simp [itemChars]
  simp only [itemChars, List.length_append, List.length_cons] at enough
  have first := back level fuel _
    (endsNumber_itemChars level list _ (endsNumber_newline outer (']' :: rest))) (by omega)
  have later := others level outer fuel rest (by omega)
  rw [text, items, skip_of_solid _ _ rfl]
  simp only [value_newline, first, later, Option.bind_eq_bind, Option.bind_some]

theorem membersReadBack_nil : MembersReadBack [] := by
  intro level outer fuel rest enough
  obtain ⟨fuel, rfl⟩ := Nat.exists_eq_add_of_lt enough
  simp [memberChars, members, skip_newline, skip_of_solid '\x7d' rest rfl]

theorem membersReadBack_cons (name : String) (v : Json) (list : List (Option String × Json))
    (back : ReadsBack v) (others : MembersReadBack list) :
    MembersReadBack ((some name, v) :: list) := by
  intro level outer fuel rest enough
  obtain ⟨fuel, rfl⟩ := Nat.exists_eq_add_of_le' (Nat.one_le_of_lt enough)
  have text : memberChars level ((some name, v) :: list) ++ (newline outer ++ '\x7d' :: rest) =
      ',' :: (newline level ++ (quote name ++ ": ".toList ++ chars level v ++
        (memberChars level list ++ (newline outer ++ '\x7d' :: rest)))) := by simp [memberChars]
  simp only [memberChars, List.length_append, List.length_cons] at enough
  have first := member_written name v back level fuel _
    (endsNumber_memberChars level list _ (endsNumber_newline outer ('\x7d' :: rest))) (by omega)
  have later := others level outer fuel rest (by omega)
  rw [text, members, skip_of_solid _ _ rfl]
  simp only [member_newline, first, later, Option.bind_eq_bind, Option.bind_some]

mutual

/-- A value whose text tells all that it holds reads back. -/
theorem readsBack (v : Json) (told : v.isTold = true) : ReadsBack v := by
  match v with
  | .null => exact readsBack_null
  | .bool b => exact readsBack_bool b
  | .real => cases told
  | .string none => cases told
  | .string (some s) => exact readsBack_string s
  | .whole i => exact readsBack_whole i
  | .array [] => exact readsBack_emptyArray
  | .array (item :: list) =>
    simp only [isTold, itemsTold, Bool.and_eq_true] at told
    exact readsBack_array item list (readsBack item told.1) (itemsReadBack list told.2)
  | .object [] => exact readsBack_emptyObject
  | .object ((none, _) :: _) => cases told
  | .object ((some name, v) :: list) =>
    simp only [isTold, membersTold, Bool.and_eq_true] at told
    exact readsBack_object name v list (readsBack v told.1.2) (membersReadBack list told.2)

theorem itemsReadBack (list : List Json) (told : itemsTold list = true) : ItemsReadBack list := by
  match list with
  | [] => exact itemsReadBack_nil
  | item :: list =>
    simp only [itemsTold, Bool.and_eq_true] at told
    exact itemsReadBack_cons item list (readsBack item told.1) (itemsReadBack list told.2)

theorem membersReadBack (list : List (Option String × Json)) (told : membersTold list = true) :
    MembersReadBack list := by
  match list with
  | [] => exact membersReadBack_nil
  | (none, _) :: _ => cases told
  | (some name, v) :: list =>
    simp only [membersTold, Bool.and_eq_true] at told
    exact membersReadBack_cons name v list (readsBack v told.1.2) (membersReadBack list told.2)

end

/-- A value whose text tells all that it holds is what the text stands for. -/
theorem parse?_render (v : Json) (told : v.isTold = true) : parse? v.render = some v := by
  have read := readsBack v told 0 (2 * v.render.length + 2) [] (.inl rfl) (by
    rw [render, String.length_ofList]
    omega)
  rw [List.append_nil] at read
  rw [parse?, render, String.toList_ofList, ← render, read]
  simp [skip]

end Workbench.Json
