import Workbench.Proofs.Path.Child
import Workbench.Proofs.Text.Trim

/-! The names of a path with something joined to it, or with its end taken off. A path seen from
another leads through the names of both, and a parent leads through the first of the names. -/
namespace Workbench.Path

/-- The names that stretches between slashes stand for. -/
def namesOf (segments : List (List Char)) : List String :=
  (segments.filter (· ≠ [])).map String.ofList

theorem namesOf_append (front back : List (List Char)) :
    namesOf (front ++ back) = namesOf front ++ namesOf back := by
  simp [namesOf]

theorem names_eq_namesOf (p : Path) : p.names = namesOf (Text.splitAt '/' p.text.toList) := rfl

variable {p q : Path} {name : String}

/-- A path seen from another leads through the names of both. -/
theorem names_join (p : Path) (relative : q.isAbsolute = false) :
    (p.join q).names = p.names ++ q.names := by
  simp only [names_eq_namesOf]
  by_cases empty : p.text = ""
  · simp [join, relative, empty, Text.splitAt, namesOf]
  · by_cases closed : p.text.toList.getLast? = some '/'
    · -- the slash at the end of the path stands between the two
      obtain ⟨front, chars⟩ := List.getLast?_eq_some_iff.mp closed
      have joined : (p.join q).text.toList = front ++ '/' :: q.text.toList := by
        simp [join, relative, chars]
      rw [joined, chars, Text.splitAt_append, Text.splitAt_append, namesOf_append, namesOf_append]
      simp [Text.splitAt, namesOf]
    · have joined : (p.join q).text.toList = p.text.toList ++ '/' :: q.text.toList := by
        simp [join, relative, empty, closed]
      rw [joined, Text.splitAt_append, namesOf_append]

theorem text_join_ne (nonempty : q.text ≠ "") : (p.join q).text ≠ "" := by
  unfold join
  split
  · exact nonempty
  · split <;> simp [nonempty]

theorem isAbsolute_join (nonempty : p.text ≠ "") (relative : q.isAbsolute = false) :
    (p.join q).isAbsolute = p.isAbsolute := by
  obtain ⟨c, rest, chars⟩ := List.exists_cons_of_ne_nil (by simpa using nonempty : p.text.toList ≠ [])
  unfold join
  rw [relative, if_neg Bool.false_ne_true]
  split <;> simp [isAbsolute, chars]

theorem hasNul_join (relative : q.isAbsolute = false) :
    (p.join q).hasNul = (p.hasNul || q.hasNul) := by
  unfold join
  rw [relative, if_neg Bool.false_ne_true]
  split <;> simp [hasNul, List.contains_eq_mem, Bool.decide_or]

theorem endsInSlash_join (nonempty : q.text ≠ "") :
    (p.join q).endsInSlash = q.endsInSlash := by
  have chars : q.text.toList ≠ [] := by simpa using nonempty
  have slashed : ('/' :: q.text.toList).getLast? = q.text.toList.getLast? :=
    List.getLast?_append_of_ne_nil ['/'] chars
  unfold join
  split
  · rfl
  · split <;> simp [endsInSlash, List.getLast?_append_of_ne_nil _ chars, slashed, nonempty]

/-- The path of what lies below a path by names. -/
def under (p : Path) (names : List String) : Path := names.foldl child p

@[simp] theorem under_nil (p : Path) : p.under [] = p := rfl

theorem under_concat (p : Path) (names : List String) (name : String) :
    p.under (names ++ [name]) = (p.under names).child name := by
  simp [under]

/-- What is known of a path is known of what lies below it. -/
structure Descends (p : Path) (down : List String) : Prop where
  names : (p.under down).names = p.names ++ down
  nonempty : (p.under down).text ≠ ""
  isAbsolute : (p.under down).isAbsolute = p.isAbsolute
  hasNul : (p.under down).hasNul = p.hasNul
  endsInSlash : down ≠ [] → (p.under down).endsInSlash = false

theorem names_name (named : IsName name) : names ⟨name⟩ = [name] := by
  have nonempty : name.toList ≠ [] := by simpa using named.nonempty
  rw [names_eq_namesOf, Text.splitAt_of_notMem '/' _ named.no_slash]
  simp [namesOf, nonempty]

theorem endsInSlash_name (named : IsName name) : endsInSlash ⟨name⟩ = false := by
  simpa [endsInSlash] using fun last => named.no_slash (List.mem_of_getLast? last)

theorem hasNul_name (named : IsName name) : hasNul ⟨name⟩ = false := by
  simpa [hasNul] using named.no_nul

theorem descends (nonempty : p.text ≠ "") (names : List String) (proper : Location.IsProper names) :
    p.Descends names := by
  induction names using List.reverseRecOn with
  | nil =>
    exact ⟨by simp, nonempty, rfl, rfl, fun lower => absurd rfl lower⟩
  | append_singleton front name ih =>
    have above := ih fun n member => proper n (List.mem_append_left _ member)
    have named : IsName name := proper name (by simp)
    have relative := isAbsolute_name named
    constructor
    · rw [under_concat, child, names_join _ relative, above.names, names_name named,
        List.append_assoc]
    · rw [under_concat, child]
      exact text_join_ne named.nonempty
    · rw [under_concat, child, isAbsolute_join above.nonempty relative, above.isAbsolute]
    · rw [under_concat, child, hasNul_join relative, above.hasNul, hasNul_name named,
        Bool.or_false]
    · intro _
      rw [under_concat, child, endsInSlash_join named.nonempty, endsInSlash_name named]

/-- The stretches that stand for what a path starts from. -/
def Anchor.segments : Anchor → List (List Char)
  | .root => [[]]
  | .here => [['.']]
  | .none => []

theorem segments_eq (p : Path) : p.segments = p.anchor.segments ++ p.body := by
  by_cases absolute : p.isAbsolute = true
  · obtain ⟨rest, chars⟩ := List.head?_eq_some_iff.mp (by simpa [isAbsolute] using absolute)
    have anchored : p.anchor = .root := by simp [anchor, absolute]
    simp [body, anchored, Anchor.segments, segments, chars, Text.splitAt]
  · by_cases dotted : p.segments.head? = some ['.']
    · have anchored : p.anchor = .here := by simp [anchor, absolute, dotted]
      obtain ⟨rest, segments⟩ := List.head?_eq_some_iff.mp dotted
      simp [body, anchored, Anchor.segments, segments]
    · have anchored : p.anchor = .none := by simp [anchor, absolute, dotted]
      simp [body, anchored, Anchor.segments]

theorem names_eq_anchor (p : Path) : p.names = namesOf (p.anchor.segments ++ p.body) := by
  rw [← segments_eq]
  rfl

theorem namesOf_splitAt_joinWith (body : List (List Char)) (free : ∀ piece ∈ body, '/' ∉ piece) :
    namesOf (Text.splitAt '/' (Text.joinWith ['/'] body)) = namesOf body := by
  by_cases empty : body = []
  · subst empty
    rfl
  · rw [Text.splitAt_joinWith '/' body empty free]

/-- A path that is put together leads through what it is put together of. -/
theorem names_ofBody (a : Anchor) (body : List (List Char)) (free : ∀ piece ∈ body, '/' ∉ piece) :
    (ofBody a body).names = namesOf (a.segments ++ body) := by
  have tail := namesOf_splitAt_joinWith body free
  rw [names_eq_namesOf, namesOf_append, ← tail]
  cases a with
  | root => simp [ofBody, Anchor.segments, Text.splitAt, namesOf]
  | here =>
    by_cases empty : body = []
    · subst empty
      simp [ofBody, Anchor.segments, Text.splitAt, Text.joinWith, namesOf]
    · simp [ofBody, empty, Anchor.segments, Text.splitAt, namesOf]
  | none => simp [ofBody, Anchor.segments, namesOf]

theorem notMem_body (p : Path) : ∀ piece ∈ p.body, '/' ∉ piece := by
  intro piece member slash
  have listed : piece ∈ Text.splitAt '/' p.text.toList := by
    rw [← segments, segments_eq]
    exact List.mem_append_right _ member
  exact (Text.mem_of_mem_splitAt '/' _ piece listed '/' slash).2 rfl

/-- Stretches that mean nothing are at most steps to the same place. -/
theorem namesOf_void (segments : List (List Char)) (void : ∀ s ∈ segments, isVoid s = true) :
    ∀ name ∈ namesOf segments, name = "." := by
  intro name listed
  obtain ⟨piece, member, rfl⟩ := List.mem_map.mp listed
  obtain ⟨inside, nonempty⟩ := List.mem_filter.mp member
  have kind := void piece inside
  simp only [isVoid, Bool.or_eq_true, decide_eq_true_eq] at kind nonempty
  rw [kind.resolve_left nonempty]

section

variable (front : List (List Char)) (begins : front <+: p.body)
include begins

/-- A path that is cut short leads through the names that are left. -/
theorem names_cut : (ofBody p.anchor front).names = namesOf (p.anchor.segments ++ front) :=
  names_ofBody p.anchor front fun piece member => notMem_body p piece (begins.subset member)

theorem isPrefix_names_cut : (ofBody p.anchor front).names <+: p.names := by
  rw [names_cut front begins, names_eq_anchor]
  obtain ⟨back, whole⟩ := begins
  refine ⟨namesOf back, ?_⟩
  rw [← whole, ← namesOf_append, List.append_assoc]

theorem isPrefix_cut : (ofBody p.anchor front).text.toList <+: p.text.toList := by
  have joined := Text.isPrefix_joinWith ['/'] front p.body begins
  have whole : p.text = (ofBody p.anchor p.body).text := by rw [ofBody_body]
  rw [whole]
  cases p.anchor with
  | root => simpa [ofBody] using joined
  | none => simpa [ofBody] using joined
  | here =>
    by_cases top : front = []
    · by_cases empty : p.body = [] <;> simp [ofBody, top, empty]
    · have nonempty : p.body ≠ [] := fun empty => top (List.prefix_nil.mp (empty ▸ begins))
      simpa [ofBody, top, nonempty] using joined

theorem isAbsolute_cut (nonempty : (ofBody p.anchor front).text ≠ "") :
    (ofBody p.anchor front).isAbsolute = p.isAbsolute := by
  obtain ⟨back, whole⟩ := isPrefix_cut front begins
  rw [isAbsolute, isAbsolute, ← whole,
    List.head?_append_of_ne_nil _ (by simpa using nonempty : _ ≠ ([] : List Char))]

theorem hasNul_cut (free : p.hasNul = false) : (ofBody p.anchor front).hasNul = false := by
  have absent : Char.ofNat 0 ∉ p.text.toList := by simpa [hasNul] using free
  simpa [hasNul] using fun member => absent ((isPrefix_cut front begins).subset member)

end

/-- A parent leads through the first of the names of a path. -/
theorem isPrefix_parent?_names (parent : p.parent? = some q) : q.names <+: p.names := by
  unfold parent? at parent
  split at parent
  · split at parent <;> cases parent
    exact List.nil_prefix
  next =>
    cases parent
    exact isPrefix_names_cut _
      (((Text.isPrefix_dropLastWhile _ _).trans (List.dropLast_prefix _)).trans
        (Text.isPrefix_dropLastWhile _ _))

/-- What a path has after its parent, dots apart, is one name; only dots have the empty path as
their parent. -/
theorem parent?_names (parent : p.parent? = some q) :
    q.text = "" ∨
      ∃ dots name rest, p.names = q.names ++ dots ++ name :: rest ∧ (∀ step ∈ dots, step = ".") ∧
        name ≠ "." := by
  obtain ⟨back, whole, void⟩ := Text.exists_dropLastWhile isVoid p.body
  change p.body = p.trimmedBody ++ back at whole
  rcases List.eq_nil_or_concat' p.trimmedBody with empty | ⟨front, last, trimmed⟩
  · left
    rw [parent?, empty] at parent
    dsimp only at parent
    split at parent <;> cases parent
    rfl
  · right
    have solid : isVoid last = false := Text.last_of_dropLastWhile isVoid p.body front last trimmed
    simp only [isVoid, Bool.or_eq_false_iff, decide_eq_false_iff_not] at solid
    obtain ⟨dots, above, void'⟩ := Text.exists_dropLastWhile isVoid front
    have begins : Text.dropLastWhile isVoid front <+: p.body :=
      ((Text.isPrefix_dropLastWhile _ _).trans
        ⟨[last] ++ back, by rw [whole, trimmed, List.append_assoc]⟩)
    have same : q = ofBody p.anchor (Text.dropLastWhile isVoid front) := by
      rw [parent?, trimmed] at parent
      cases body : front ++ [last] with
      | nil => simp at body
      | cons first more =>
        rw [body] at parent
        dsimp only at parent
        rw [← body, List.dropLast_concat] at parent
        exact (Option.some.inj parent).symm
    refine ⟨namesOf dots, String.ofList last, namesOf back, ?_, namesOf_void dots void', ?_⟩
    · have own : namesOf (last :: back) = String.ofList last :: namesOf back := by
        simp [namesOf, solid.1]
      rw [same, names_cut _ begins, names_eq_anchor, whole, trimmed]
      nth_rewrite 1 [above]
      simp only [namesOf_append, List.append_assoc, List.singleton_append, own]
    · intro dot
      have chars := congrArg String.toList dot
      exact solid.2 (by simpa using chars)

theorem parent?_isAbsolute (parent : p.parent? = some q) : q.isAbsolute = p.isAbsolute := by
  unfold parent? at parent
  split at parent
  · split at parent
    next here =>
      cases parent
      have relative : p.isAbsolute = false := by
        by_contra absolute
        rw [Bool.not_eq_false] at absolute
        simp [anchor, absolute] at here
      rw [relative]
      rfl
    next => cases parent
  · cases parent
    by_cases empty :
        (ofBody p.anchor (Text.dropLastWhile isVoid p.trimmedBody.dropLast)).text = ""
    · -- only a path that starts from nothing has nothing left
      have relative : p.isAbsolute = false := by
        by_contra absolute
        rw [Bool.not_eq_false] at absolute
        simp [anchor, absolute, ofBody] at empty
      rw [isAbsolute, empty, relative]
      rfl
    · exact isAbsolute_cut _
        (((Text.isPrefix_dropLastWhile _ _).trans (List.dropLast_prefix _)).trans
          (Text.isPrefix_dropLastWhile _ _)) empty

/-- A path without the dots and slashes at its end. -/
def trimmed (p : Path) : Path := ofBody p.anchor p.trimmedBody

theorem isPrefix_trimmedBody (p : Path) : p.trimmedBody <+: p.body :=
  Text.isPrefix_dropLastWhile _ _

/-- What is taken off the end of a path are steps to the same place. -/
theorem names_trimmed (p : Path) :
    ∃ dots, p.names = p.trimmed.names ++ dots ∧ ∀ step ∈ dots, step = "." := by
  obtain ⟨back, whole, void⟩ := Text.exists_dropLastWhile isVoid p.body
  refine ⟨namesOf back, ?_, namesOf_void back void⟩
  have left : p.trimmed.names = namesOf (p.anchor.segments ++ p.trimmedBody) :=
    names_cut _ p.isPrefix_trimmedBody
  rw [left, names_eq_anchor, ← namesOf_append, List.append_assoc, trimmedBody, ← whole]

/-- What a path begins with means something, if it starts from nothing. -/
theorem exists_body_of_anchor_none (nonempty : p.text ≠ "") (anchored : p.anchor = .none) :
    ∃ first rest, p.body = first :: rest ∧ isVoid first = false := by
  have segments : p.segments = p.body := by simp [segments_eq, anchored, Anchor.segments]
  obtain ⟨first, rest, cut⟩ := List.exists_cons_of_ne_nil (Text.splitAt_ne_nil '/' p.text.toList)
  have solid : first ≠ [] := by
    rintro rfl
    rcases Text.eq_nil_or_head?_of_splitAt '/' _ (by rw [cut]; rfl) with empty | absolute
    · exact nonempty (by simpa using empty)
    · simp [anchor, isAbsolute, absolute] at anchored
  have dotless : first ≠ ['.'] := by
    rintro rfl
    by_cases absolute : p.isAbsolute = true <;> simp [anchor, Path.segments, cut, absolute] at anchored
  refine ⟨first, rest, ?_, by simp [isVoid, solid, dotless]⟩
  rw [← segments, Path.segments, cut]

theorem components_ne_nil (nonempty : p.text ≠ "") : p.components ≠ [] := by
  cases anchored : p.anchor with
  | root => simp [components, anchored, Anchor.components]
  | here => simp [components, anchored, Anchor.components]
  | none =>
    obtain ⟨first, rest, body, solid⟩ := exists_body_of_anchor_none nonempty anchored
    have meant : Component.ofSegment? first ≠ none := by
      rw [Component.ofSegment?, if_neg (by simp [solid])]
      split <;> simp
    obtain ⟨c, found⟩ := Option.ne_none_iff_exists'.mp meant
    simp [components, body, found]

theorem trimmed_text_ne (nonempty : p.text ≠ "") : p.trimmed.text ≠ "" := by
  cases anchored : p.anchor with
  | root => simp [trimmed, ofBody, anchored]
  | here =>
    unfold trimmed ofBody
    rw [anchored]
    dsimp only
    split <;> simp
  | none =>
    obtain ⟨first, rest, body, solid⟩ := exists_body_of_anchor_none nonempty anchored
    have lettered : first ≠ [] := by
      rintro rfl
      simp [isVoid] at solid
    obtain ⟨back, whole, void⟩ := Text.exists_dropLastWhile isVoid p.body
    -- the first stretch means something, so that it is not taken off
    change p.body = p.trimmedBody ++ back at whole
    rw [body] at whole
    cases kept : p.trimmedBody with
    | nil =>
      have member : first ∈ back := by simp [kept] at whole; simp [← whole]
      simp [void first member] at solid
    | cons piece more =>
      have same : piece = first := by simp [kept] at whole; exact whole.1.symm
      subst same
      cases more <;> simp [trimmed, ofBody, anchored, kept, Text.joinWith, lettered]

/-- Behind the stretches of a path, a slash at its end apart, come those of what is joined to it. -/
theorem exists_segments_join (nonempty : p.text ≠ "") (relative : q.isAbsolute = false) :
    ∃ above, above ≠ [] ∧ (p.join q).segments = above ++ q.segments ∧
      (p.segments = above ∨ p.segments = above ++ [[]]) := by
  by_cases closed : p.text.toList.getLast? = some '/'
  · obtain ⟨front, chars⟩ := List.getLast?_eq_some_iff.mp closed
    have joined : (p.join q).text.toList = front ++ '/' :: q.text.toList := by
      simp [join, relative, chars]
    refine ⟨Text.splitAt '/' front, Text.splitAt_ne_nil _ _, ?_, .inr ?_⟩
    · rw [segments, joined, Text.splitAt_append]
      rfl
    · rw [segments, chars, Text.splitAt_append]
      rfl
  · have joined : (p.join q).text.toList = p.text.toList ++ '/' :: q.text.toList := by
      simp [join, relative, nonempty, closed]
    refine ⟨p.segments, Text.splitAt_ne_nil _ _, ?_, .inl rfl⟩
    rw [segments, joined, Text.splitAt_append]
    rfl

theorem anchor_join (nonempty : p.text ≠ "") (relative : q.isAbsolute = false) :
    (p.join q).anchor = p.anchor := by
  obtain ⟨above, named, below, same⟩ := exists_segments_join nonempty relative
  have first : (p.join q).segments.head? = p.segments.head? := by
    rcases same with same | same <;>
      rw [below, same] <;> simp [List.head?_append_of_ne_nil _ named]
  rw [anchor, anchor, first, isAbsolute_join nonempty relative]

theorem anchor_child_eq (nonempty : p.text ≠ "") (named : IsName name) :
    (p.child name).anchor = p.anchor :=
  anchor_join nonempty (isAbsolute_name named)

theorem segments_name (named : IsName name) : segments ⟨name⟩ = [name.toList] :=
  Text.splitAt_of_notMem '/' _ named.no_slash

/-- Stretches that mean nothing stand for no component. -/
theorem components_eq (p : Path) :
    p.components = p.anchor.components ++ p.segments.filterMap Component.ofSegment? := by
  have void : p.anchor.segments.filterMap Component.ofSegment? = [] := by
    cases p.anchor <;> decide
  rw [components, segments_eq, List.filterMap_append, void, List.nil_append]

/-- The components of what is joined to a path come behind those of the path, where a dot in front
means nothing. -/
theorem components_join (nonempty : p.text ≠ "") (relative : q.isAbsolute = false) :
    (p.join q).components = p.components ++ q.components.filter (· ≠ .here) := by
  obtain ⟨above, -, below, same⟩ := exists_segments_join nonempty relative
  have upper : p.segments.filterMap Component.ofSegment? =
      above.filterMap Component.ofSegment? := by
    rcases same with same | same
    · rw [same]
    · simp [same, Component.ofSegment?, isVoid]
  have lower : q.components.filter (· ≠ .here) = q.segments.filterMap Component.ofSegment? := by
    have front : q.anchor.components.filter (· ≠ .here) = [] := by
      unfold anchor
      rw [relative, if_neg Bool.false_ne_true]
      split <;> decide
    have back : ∀ c ∈ q.segments.filterMap Component.ofSegment?, c ≠ .here := by
      intro c listed
      obtain ⟨segment, -, meant⟩ := List.mem_filterMap.mp listed
      rintro rfl
      unfold Component.ofSegment? at meant
      repeat' split at meant
      all_goals cases meant
    rw [components_eq, List.filter_append, front, List.nil_append]
    exact List.filter_eq_self.mpr fun c listed => by simpa using back c listed
  rw [components_eq, components_eq p, anchor_join nonempty relative, below, List.filterMap_append,
    upper, lower, List.append_assoc]

/-- The body of what lies in a directory is that of the directory with the name behind it, but for
an empty stretch. -/
theorem exists_body_child (nonempty : p.text ≠ "") (named : IsName name) :
    ∃ front, (p.child name).body = front ++ [name.toList] ∧
      Text.dropLastWhile isVoid front = p.trimmedBody := by
  obtain ⟨above, placed, below, same⟩ := exists_segments_join nonempty (isAbsolute_name named)
  rw [segments_name named, ← child] at below
  have long : 1 ≤ above.length := List.length_pos_iff.mpr placed
  have void (xs : List (List Char)) :
      Text.dropLastWhile isVoid (xs ++ [[]]) = Text.dropLastWhile isVoid xs := by
    simp [Text.dropLastWhile, isVoid]
  refine ⟨if p.anchor = .none then above else above.drop 1, ?_, ?_⟩
  · rw [Path.body, anchor_child_eq nonempty named, below]
    split
    · rfl
    · exact List.drop_append_of_le_length long
  · rw [trimmedBody, Path.body]
    rcases same with same | same
    · rw [same]
    · rw [same]
      split
      · rw [void]
      · rw [List.drop_append_of_le_length long, void]

/-- The parent of what lies in a directory is the directory, up to dots and slashes at its end. -/
theorem parent?_child_eq (nonempty : p.text ≠ "") (named : IsName name) :
    (p.child name).parent? = some p.trimmed := by
  obtain ⟨front, body, kept⟩ := exists_body_child nonempty named
  have solid := Text.dropLastWhile_concat front (isVoid_name named)
  rw [parent?, Path.trimmedBody, body, solid]
  split
  next empty => simp at empty
  next => rw [List.dropLast_concat, kept, anchor_child_eq nonempty named, trimmed]

end Workbench.Path
