import Mathlib.Data.List.Lex
import Workbench.Proofs.Path.Descent

/-! What lies below a path, seen from it. The way down is left of it, and its last name. Below a path,
the order of paths is that of the names that lead there: paths are compared component by component,
and not by their texts, in which a slash is compared like any other character. -/
namespace Workbench.Path

variable {p : Path} {name : String}

/-- Nothing is taken off a path that ends in a name. -/
theorem trimmedBody_child (nonempty : p.text ≠ "") (named : IsName name) :
    ∃ front, (p.child name).trimmedBody = front ++ [name.toList] := by
  obtain ⟨front, body, -⟩ := exists_body_child nonempty named
  exact ⟨front, by rw [trimmedBody, body, Text.dropLastWhile_concat _ (isVoid_name named)]⟩

theorem fileName?_child (nonempty : p.text ≠ "") (named : IsName name) :
    (p.child name).fileName? = some name := by
  obtain ⟨front, body⟩ := trimmedBody_child nonempty named
  have level : name.toList ≠ ['.', '.'] :=
    fun same => named.not_up (String.toList_injective (by simpa using same))
  rw [fileName?, body, List.getLast?_concat]
  simp [level]

theorem fileName?_name (named : IsName name) : fileName? ⟨name⟩ = some name := by
  have level : name.toList ≠ ['.', '.'] :=
    fun same => named.not_up (String.toList_injective (by simpa using same))
  have segments : segments ⟨name⟩ = [name.toList] :=
    Text.splitAt_of_notMem '/' name.toList named.no_slash
  have here : name.toList ≠ ['.'] :=
    fun same => named.not_here (String.toList_injective (by simpa using same))
  have anchored : anchor ⟨name⟩ = .none := by
    simp [anchor, isAbsolute_name named, segments, here]
  have body : trimmedBody ⟨name⟩ = [name.toList] := by
    rw [trimmedBody, body, if_pos anchored, segments]
    exact Text.dropLastWhile_concat [] (isVoid_name named)
  rw [fileName?, body]
  simp [level]

theorem filterMap_dropLastWhile (body : List (List Char)) :
    (Text.dropLastWhile isVoid body).filterMap Component.ofSegment? =
      body.filterMap Component.ofSegment? := by
  obtain ⟨back, whole, void⟩ := Text.exists_dropLastWhile isVoid body
  have nothing : back.filterMap Component.ofSegment? = [] := by
    rw [List.filterMap_eq_nil_iff]
    intro segment member
    rw [Component.ofSegment?, if_pos (void segment member)]
  conv_rhs => rw [whole]
  rw [List.filterMap_append, nothing, List.append_nil]

/-- Behind the meaningful stretches of a body comes what was put behind it. -/
theorem dropNames_append (front back : List (List Char)) :
    (dropNames (front.filterMap Component.ofSegment?).length (front ++ back)).dropWhile isVoid =
      back.dropWhile isVoid := by
  -- stretches that mean nothing are passed over and not counted
  induction front with
  | nil => rw [List.filterMap_nil, List.length_nil, dropNames, List.nil_append]
  | cons segment rest ih =>
    by_cases void : isVoid segment = true
    · have nothing : Component.ofSegment? segment = none := by
        rw [Component.ofSegment?, if_pos void]
      rw [List.filterMap_cons_none nothing, List.cons_append, ← ih]
      cases (rest.filterMap Component.ofSegment?).length with
      | zero => rw [dropNames, dropNames, List.dropWhile_cons_of_pos void]
      | succ n => rw [dropNames, if_pos void]
    · obtain ⟨c, something⟩ : ∃ c, Component.ofSegment? segment = some c := by
        rw [Component.ofSegment?, if_neg void]
        split
        · exact ⟨_, rfl⟩
        · exact ⟨_, rfl⟩
      rw [List.filterMap_cons_some something, List.length_cons, List.cons_append, dropNames,
        if_neg void, ih]

theorem dropWhile_names (names : List String) (proper : Location.IsProper names) :
    (names.map String.toList).dropWhile isVoid = names.map String.toList := by
  cases names with
  | nil => rfl
  | cons first rest =>
    have solid := isVoid_name (proper first List.mem_cons_self)
    rw [List.map_cons, List.dropWhile_cons_of_neg (by simp [solid])]

theorem dropLastWhile_names (names : List String) (proper : Location.IsProper names) :
    Text.dropLastWhile isVoid (names.map String.toList) = names.map String.toList := by
  rcases List.eq_nil_or_concat' names with rfl | ⟨front, last, rfl⟩
  · rfl
  · rw [List.map_append, List.map_singleton]
    exact Text.dropLastWhile_concat _ (isVoid_name (proper last (by simp)))

/-- The body of what lies below a path is that of the path, but for stretches at its end that mean
nothing, with the names behind it. -/
theorem exists_body_under (nonempty : p.text ≠ "") (names : List String)
    (proper : Location.IsProper names) (lower : names ≠ []) :
    (p.under names).anchor = p.anchor ∧
      ∃ front, (p.under names).body = front ++ names.map String.toList ∧
        Text.dropLastWhile isVoid front = p.trimmedBody := by
  -- only the path itself may be written with a slash at its end; what lies below it is not
  induction names using List.reverseRecOn with
  | nil => exact absurd rfl lower
  | append_singleton above name ih =>
    have named : IsName name := proper name (by simp)
    have proper : Location.IsProper above := fun n member => proper n (List.mem_append_left _ member)
    rw [under_concat]
    by_cases first : above = []
    · subst first
      obtain ⟨front, body, kept⟩ := exists_body_child nonempty named
      exact ⟨anchor_child_eq nonempty named, front, body, kept⟩
    · have descends := descends nonempty above proper
      obtain ⟨anchor, front, body, kept⟩ := ih proper first
      have isOpen : (p.under above).IsOpen := ⟨descends.nonempty, descends.endsInSlash first⟩
      have anchor' := anchor_child_eq descends.nonempty named
      refine ⟨anchor'.trans anchor, front, ?_, kept⟩
      rw [List.map_append, List.map_singleton, ← List.append_assoc, ← body, Path.body, Path.body,
        anchor', segments_child isOpen named]
      split
      · rfl
      · exact List.drop_append_of_le_length (List.length_pos_iff.mpr (Text.splitAt_ne_nil _ _))

/-- Seen from a path, what lies below it is what the names that lead there are put together to. -/
theorem relativeTo?_under (nonempty : p.text ≠ "") (names : List String)
    (proper : Location.IsProper names) (named : names ≠ []) :
    (p.under names).relativeTo? p =
      some ⟨String.ofList (Text.joinWith ['/'] (names.map String.toList))⟩ := by
  obtain ⟨anchor, front, body, kept⟩ := exists_body_under nonempty names proper named
  have same : front.filterMap Component.ofSegment? = p.body.filterMap Component.ofSegment? := by
    rw [← filterMap_dropLastWhile front, kept, trimmedBody, filterMap_dropLastWhile]
  have begins : (p.under names).startsWith p = true := by
    rw [startsWith, List.isPrefixOf_iff_prefix, components, components, anchor, body,
      List.filterMap_append, same, ← List.append_assoc]
    exact List.prefix_append _ _
  have meant : p.components.length =
      p.anchor.components.length + (front.filterMap Component.ofSegment?).length := by
    rw [components, List.length_append, same]
  have dropped (n : Nat) (whole : p.components.length = n + 1) :
      (if p.anchor = .none then dropNames (n + 1) (p.under names).body
        else dropNames n (p.under names).body).dropWhile isVoid = names.map String.toList := by
    -- the anchor is one of the components that are dropped, but not in the body
    have count : (if p.anchor = .none then n + 1 else n) =
        (front.filterMap Component.ofSegment?).length := by
      rw [meant] at whole
      revert whole
      cases p.anchor <;> simp [Anchor.components] <;> omega
    have inside : (if p.anchor = .none then dropNames (n + 1) (p.under names).body
        else dropNames n (p.under names).body) =
          dropNames (if p.anchor = .none then n + 1 else n) (p.under names).body := by
      split <;> rfl
    rw [inside, count, body, dropNames_append, dropWhile_names names proper]
  rw [relativeTo?, if_pos begins]
  cases length : p.components.length with
  | zero => exact absurd (List.eq_nil_of_length_eq_zero length) (components_ne_nil nonempty)
  | succ n =>
    dsimp only
    rw [anchor, dropped n length, dropLastWhile_names names proper]
    rfl

/-- The kinds of components in their order. -/
def Component.rank : Component → Nat
  | .root => 0
  | .here => 1
  | .up => 2
  | .name _ => 3

/-- A component comes before those of a later kind, and a name before names that are greater. -/
def Component.Precedes (a b : Component) : Prop :=
  a.rank < b.rank ∨ ∃ s t, a = .name s ∧ b = .name t ∧ s < t

theorem Component.Precedes.irrefl (a : Component) : ¬ a.Precedes a := by
  rintro (less | ⟨s, t, rfl, same, less⟩)
  · exact Nat.lt_irrefl _ less
  · cases same
    exact String.lt_irrefl s less

/-- A path comes before another at the first component in which they differ, or if it ends there. -/
def Precedes (p q : Path) : Prop := List.Lex Component.Precedes p.components q.components

theorem Precedes.irrefl (p : Path) : ¬ p.Precedes p := by
  unfold Precedes
  induction p.components with
  | nil => rintro ⟨⟩
  | cons c rest ih =>
    intro before
    cases before with
    | rel less => exact Component.Precedes.irrefl c less
    | cons later => exact ih later

variable {src : Path} {names names' : List String}

/-- The components of what lies below a path are those of the path with the names behind them. -/
theorem components_under (nonempty : src.text ≠ "") (names : Location) (proper : names.IsProper) :
    (src.under names).components = src.components ++ names.map Component.name := by
  by_cases empty : names = []
  · subst empty
    simp
  · obtain ⟨anchor, front, body, kept⟩ := exists_body_under nonempty names proper empty
    have same : front.filterMap Component.ofSegment? = src.body.filterMap Component.ofSegment? := by
      rw [← filterMap_dropLastWhile front, kept, trimmedBody, filterMap_dropLastWhile]
    rw [components, components, anchor, body, List.filterMap_append, same,
      Location.filterMap_ofSegment? _ proper, List.append_assoc]

/-- Below a path the order is that of the names that lead there. -/
theorem precedes_under (nonempty : src.text ≠ "") (proper : Location.IsProper names)
    (proper' : Location.IsProper names') (less : names < names') :
    (src.under names).Precedes (src.under names') := by
  have lifted (first second : List String) (lex : List.Lex (· < ·) first second) :
      List.Lex Component.Precedes (first.map Component.name) (second.map Component.name) := by
    induction lex with
    | nil => exact .nil
    | cons _ ih => exact .cons ih
    | rel less => exact .rel (.inr ⟨_, _, rfl, rfl, less⟩)
  rw [Precedes, components_under nonempty names proper, components_under nonempty names' proper']
  exact List.Lex.append_left _ (lifted names names' less) _

end Workbench.Path
