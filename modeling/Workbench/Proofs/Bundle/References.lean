import Workbench.Proofs.Bundle.Document

/-! The references are put into a document, and nothing else is done to it. Each stands in front of
the first mark of its kind that the document had before: a mark opens with a character that no
mark holds again, so that what is put in front of one mark neither makes nor breaks another. -/
namespace Workbench.Bundle

/-- A mark begins at a place of a text, and at none before it. -/
def BeginsFirst (mark text : List Char) (place : Nat) : Prop :=
  mark <+: text.drop place ∧ ∀ earlier < place, ¬mark <+: text.drop earlier

instance (mark text : List Char) (place : Nat) : Decidable (BeginsFirst mark text place) :=
  inferInstanceAs (Decidable (_ ∧ _))

/-- A text in which something is put in front of the character at each place. -/
def withInsertions (put : Nat → List Char) : List Char → List Char
  | [] => []
  | c :: rest => put 0 ++ c :: withInsertions (fun place => put (place + 1)) rest

/-- A mark and what is put in front of it open with a character that the mark does not hold
again. -/
structure Opens (opening : Char) (mark insertion : List Char) : Prop where
  marked : mark.head? = some opening
  inserted : insertion.head? = some opening
  once : opening ∉ mark.tail

variable {mark insertion : List Char}

@[simp]
theorem beginsFirst_zero (text : List Char) : BeginsFirst mark text 0 ↔ mark <+: text := by
  simp [BeginsFirst]

@[simp]
theorem beginsFirst_succ (c : Char) (rest : List Char) (place : Nat) :
    BeginsFirst mark (c :: rest) (place + 1) ↔
      ¬mark <+: c :: rest ∧ BeginsFirst mark rest place := by
  constructor
  · rintro ⟨here, unbegun⟩
    exact ⟨unbegun 0 (Nat.succ_pos place), here, fun earlier before =>
      unbegun (earlier + 1) (Nat.succ_lt_succ before)⟩
  · rintro ⟨other, here, unbegun⟩
    refine ⟨here, fun earlier before => ?_⟩
    cases earlier with
    | zero => exact other
    | succ earlier => exact unbegun earlier (Nat.lt_of_succ_lt_succ before)

/-- Two marks of which neither begins with the other do not begin at one place. -/
theorem BeginsFirst.apart {mark' text : List Char} {place : Nat}
    (first : BeginsFirst mark text place) (apart : ¬mark <+: mark') (apart' : ¬mark' <+: mark) :
    ¬BeginsFirst mark' text place := by
  intro second
  rcases List.prefix_or_prefix_of_prefix first.1 second.1 with shorter | longer
  · exact apart shorter
  · exact apart' longer

theorem withInsertions_nothing (text : List Char) : withInsertions (fun _ => []) text = text := by
  induction text with
  | nil => rfl
  | cons c rest ih => rw [withInsertions, ih, List.nil_append]

/-- Where a mark begins, the insertion comes and the text goes on as it was. -/
theorem insertBefore_of_begins (text : List Char) (begins : mark <+: text) :
    insertBefore mark insertion text = insertion ++ text := by
  obtain ⟨after, rfl⟩ := begins
  rw [insertBefore, Text.cutAt?_self]
  simp

theorem insertBefore_cons (c : Char) (rest : List Char) (other : ¬mark <+: c :: rest) :
    insertBefore mark insertion (c :: rest) = c :: insertBefore mark insertion rest := by
  rw [insertBefore, Text.cutAt?_cons mark c rest other, insertBefore]
  cases Text.cutAt? mark rest with
  | none => rfl
  | some cut => rfl

/-- Behind a front in which the mark begins nowhere, the text is searched for it. -/
theorem insertBefore_of_isFreeOf (front back : List Char)
    (free : Text.isFreeOf mark front = true) :
    insertBefore mark insertion (front ++ back) = front ++ insertBefore mark insertion back := by
  rw [insertBefore, Text.cutAt?_of_isFreeOf mark front back free, insertBefore]
  cases Text.cutAt? mark back with
  | none => rfl
  | some cut => simp

/-- A mark that is put into a text is put in front of its first place. -/
theorem insertBefore_eq_withInsertions (nonempty : mark ≠ []) (text : List Char) :
    insertBefore mark insertion text =
      withInsertions (fun place => if BeginsFirst mark text place then insertion else []) text := by
  induction text with
  | nil =>
    rw [insertBefore, Text.cutAt?, if_neg nonempty]
    rfl
  | cons c rest ih =>
    rw [withInsertions]
    by_cases begins : mark <+: c :: rest
    · rw [insertBefore_of_begins _ begins]
      simp [begins, withInsertions_nothing]
    · rw [insertBefore_cons c rest begins, ih]
      simp [begins]

section

variable {opening : Char} {mark' insertion' : List Char}

theorem Opens.ne_nil (opens : Opens opening mark insertion) : mark ≠ [] := by
  rintro rfl
  cases opens.marked

/-- What does not hold the opening character is in front of a text exactly if it was so before the
insertion. -/
theorem Opens.prefix_iff (opens : Opens opening mark insertion) (needle text : List Char)
    (closed : opening ∉ needle) :
    needle <+: insertBefore mark insertion text ↔ needle <+: text := by
  induction needle generalizing text with
  | nil => simp
  | cons d needle ih =>
    rw [List.mem_cons, not_or] at closed
    cases text with
    | nil => rw [insertBefore_eq_withInsertions opens.ne_nil, withInsertions]
    | cons c rest =>
      by_cases begins : mark <+: c :: rest
      · -- both texts begin with the opening character
        obtain ⟨name, rfl⟩ := List.head?_eq_some_iff.mp opens.marked
        obtain ⟨more, rfl⟩ := List.head?_eq_some_iff.mp opens.inserted
        obtain ⟨rfl, -⟩ := List.cons_prefix_cons.mp begins
        rw [insertBefore_of_begins _ begins, List.cons_append, List.cons_prefix_cons,
          List.cons_prefix_cons]
        simp [Ne.symm closed.1]
      · rw [insertBefore_cons c rest begins, List.cons_prefix_cons, List.cons_prefix_cons,
          ih rest closed.2]

/-- Two insertions, each in front of the first place of its mark in the text as it was. -/
theorem Opens.insertBefore_insertBefore (opens : Opens opening mark insertion)
    (opens' : Opens opening mark' insertion') (free : Text.isFreeOf mark' insertion = true)
    (text : List Char) :
    insertBefore mark' insertion' (insertBefore mark insertion text) =
      withInsertions (fun place =>
        (if BeginsFirst mark text place then insertion else []) ++
          if BeginsFirst mark' text place then insertion' else []) text := by
  induction text with
  | nil =>
    rw [insertBefore_eq_withInsertions opens.ne_nil, withInsertions,
      insertBefore_eq_withInsertions opens'.ne_nil, withInsertions, withInsertions]
  | cons c rest ih =>
    by_cases begins : mark <+: c :: rest
    · -- nothing more is put in for the first mark, and the second is not in what was put in
      rw [insertBefore_of_begins _ begins, insertBefore_of_isFreeOf _ _ free,
        insertBefore_eq_withInsertions opens'.ne_nil, withInsertions, withInsertions]
      simp [begins]
    · have same : mark' <+: c :: insertBefore mark insertion rest ↔ mark' <+: c :: rest := by
        obtain ⟨name', rfl⟩ := List.head?_eq_some_iff.mp opens'.marked
        rw [List.cons_prefix_cons, List.cons_prefix_cons, opens.prefix_iff name' rest opens'.once]
      rw [insertBefore_cons c rest begins, withInsertions]
      by_cases begins' : mark' <+: c :: rest
      · rw [insertBefore_of_begins _ (same.mpr begins'),
          insertBefore_eq_withInsertions opens.ne_nil]
        simp [begins, begins']
      · rw [insertBefore_cons _ _ (mt same.mp begins'), ih]
        simp [begins, begins']

/-- Where no two marks begin at one place, it makes no difference which insertion comes first. -/
theorem Opens.insertBefore_comm (opens : Opens opening mark insertion)
    (opens' : Opens opening mark' insertion') (free : Text.isFreeOf mark' insertion = true)
    (free' : Text.isFreeOf mark insertion' = true) (apart : ¬mark <+: mark')
    (apart' : ¬mark' <+: mark) (text : List Char) :
    insertBefore mark insertion (insertBefore mark' insertion' text) =
      insertBefore mark' insertion' (insertBefore mark insertion text) := by
  rw [opens.insertBefore_insertBefore opens' free, opens'.insertBefore_insertBefore opens free']
  congr 1
  funext place
  by_cases first : BeginsFirst mark text place
  · simp [first.apart apart apart']
  · simp [first]

end

theorem opens_styleLink : Opens '<' "</head>".toList styleLink.toList :=
  ⟨by decide, by decide, by decide⟩

theorem opens_scriptTag : Opens '<' "</body>".toList scriptTag.toList :=
  ⟨by decide, by decide, by decide⟩

/-- The link to the style sheet and the script tag are put in front of the first closing tag of the
head and of the body, as far as the document has these, and nothing else is done to it. The order
in which they are put in makes no difference. -/
theorem references_inserted (document : String) :
    (injectReferences document).toList = withInsertions (fun place =>
      (if BeginsFirst "</head>".toList document.toList place then styleLink.toList else []) ++
        if BeginsFirst "</body>".toList document.toList place then scriptTag.toList else [])
      document.toList ∧
    insertBefore "</head>".toList styleLink.toList
        (insertBefore "</body>".toList scriptTag.toList document.toList) =
      (injectReferences document).toList := by
  have linked : (injectReferences document).toList = insertBefore "</body>".toList scriptTag.toList
      (insertBefore "</head>".toList styleLink.toList document.toList) := String.toList_ofList
  have free : Text.isFreeOf "</body>".toList styleLink.toList = true := by decide
  have free' : Text.isFreeOf "</head>".toList scriptTag.toList = true := by decide
  rw [linked]
  constructor
  · exact opens_styleLink.insertBefore_insertBefore opens_scriptTag free document.toList
  · exact opens_styleLink.insertBefore_comm opens_scriptTag free free' (by decide) (by decide)
      document.toList

/-- A body that ends before the head gets its reference all the same. -/
example : injectReferences "</body><</head></head>" =
    "<script type=\"module\" src=\"/bundle.js\"></script></body><" ++
      "<link rel=\"stylesheet\" href=\"/bundle.css\" /></head></head>" := by
  decide +kernel

end Workbench.Bundle
