import Mathlib.Data.List.Infix
import Workbench.Disk.Trace
import Workbench.Proofs.Text.Split

/-! The absolute path of a location reads back as the names of the location. -/
namespace Workbench

/-- A name that an entry of a directory can have. -/
structure IsName (name : String) : Prop where
  nonempty : name ≠ ""
  not_here : name ≠ "."
  not_up : name ≠ ".."
  no_slash : '/' ∉ name.toList
  no_nul : Char.ofNat 0 ∉ name.toList
  short : name.utf8ByteSize ≤ Disk.nameLimit

namespace Location

/-- A location all of whose names are proper ones. -/
def IsProper (l : Location) : Prop := ∀ name ∈ l, IsName name

theorem isProper_singleton (name : String) (named : IsName name) : IsProper [name] := by
  intro n member
  rwa [List.mem_singleton.mp member]

/-- Proper names are no steps up or to the same place. -/
theorem IsProper.filter_ne_here (names : Location) (proper : names.IsProper) :
    ".." ∉ names ∧ names.filter (· ≠ ".") = names := by
  refine ⟨fun member => (proper _ member).not_up rfl, ?_⟩
  rw [List.filter_eq_self]
  intro name member
  simpa using (proper name member).not_here

variable (l : Location)

theorem path_chars : l.path.text.toList = '/' :: Text.joinWith ['/'] (l.map String.toList) := by
  simp [path]

theorem path_text_ne : l.path.text ≠ "" := by
  intro empty
  have chars := path_chars l
  simp [empty] at chars

theorem path_isAbsolute : l.path.isAbsolute = true := by
  simp [Path.isAbsolute, path_chars]

theorem path_segments (proper : l.IsProper) :
    l.path.segments = [] :: if l = [] then [[]] else l.map String.toList := by
  rw [Path.segments, path_chars, Text.splitAt, if_pos rfl]
  split
  -- the root is a single slash, with an empty stretch on both sides
  next top => simp [top, Text.joinWith, Text.splitAt]
  next nonempty =>
    rw [Text.splitAt_joinWith '/' _ (by simpa using nonempty)]
    intro piece member
    obtain ⟨name, listed, rfl⟩ := List.mem_map.mp member
    exact (proper name listed).no_slash

theorem map_ofList_toList (names : List String) :
    (names.map String.toList).map String.ofList = names := by
  simp [List.map_map, Function.comp_def]

theorem filter_toList_ne_nil (proper : l.IsProper) :
    (l.map String.toList).filter (· ≠ []) = l.map String.toList := by
  rw [List.filter_eq_self]
  intro piece member
  obtain ⟨name, listed, rfl⟩ := List.mem_map.mp member
  simpa using (proper name listed).nonempty

/-- The names of the absolute path of a location are those of the location. -/
theorem path_names (proper : l.IsProper) : l.path.names = l := by
  rw [Path.names, path_segments l proper, List.filter_cons_of_neg (by simp)]
  split
  next empty => simp [empty]
  next => rw [filter_toList_ne_nil l proper, map_ofList_toList]

theorem joinWith_getLast? (pieces : List (List Char)) (last : List Char)
    (ends : pieces.getLast? = some last) (nonempty : last ≠ []) :
    (Text.joinWith ['/'] pieces).getLast? = last.getLast? := by
  induction pieces with
  | nil => simp at ends
  | cons piece more ih =>
    cases more with
    | nil =>
      have same : piece = last := by simpa using ends
      simp [Text.joinWith, same]
    | cons next more =>
      -- the last piece comes last whatever stands before it
      have rest := ih (by simpa using ends)
      obtain ⟨c, found⟩ := Option.ne_none_iff_exists'.mp (mt List.getLast?_eq_none_iff.mp nonempty)
      rw [Text.joinWith, List.getLast?_append, rest, found]
      · rfl
      · simp

theorem path_endsInSlash (proper : l.IsProper) : l.path.endsInSlash = decide (l = []) := by
  rw [Path.endsInSlash, path_chars]
  rcases List.eq_nil_or_concat' l with rfl | ⟨dir, name, rfl⟩
  · rfl
  · have named : IsName name := proper name (by simp)
    have nonempty : name.toList ≠ [] := by simpa using named.nonempty
    have ends :=
      joinWith_getLast? ((dir ++ [name]).map String.toList) name.toList (by simp) nonempty
    obtain ⟨c, found⟩ := Option.ne_none_iff_exists'.mp (mt List.getLast?_eq_none_iff.mp nonempty)
    have other : c ≠ '/' := fun same => named.no_slash (same ▸ List.mem_of_getLast? found)
    rw [List.getLast?_cons, ends, found]
    simp [other]

theorem path_hasNul (proper : l.IsProper) : l.path.hasNul = false := by
  -- neither the names nor the slashes between them hold the character
  have free : ∀ names : Location, names.IsProper →
      Char.ofNat 0 ∉ Text.joinWith ['/'] (names.map String.toList) := by
    intro names
    induction names with
    | nil => simp [Text.joinWith]
    | cons name more ih =>
      intro proper
      have first : Char.ofNat 0 ∉ name.toList := (proper name List.mem_cons_self).no_nul
      have others := ih fun n member => proper n (List.mem_cons_of_mem _ member)
      cases more with
      | nil => simpa [Text.joinWith] using first
      | cons next more =>
        simp only [List.map_cons, Text.joinWith, List.mem_append, not_or] at others ⊢
        exact ⟨⟨first, by decide⟩, others⟩
  rw [Path.hasNul, path_chars]
  simpa using free l proper

/-- The steps of the absolute path of a location lead through its names. -/
theorem path_steps (proper : l.IsProper) : l.path.steps = if l = [] then ["."] else l := by
  rw [Path.steps, path_endsInSlash l proper, path_names l proper]
  split <;> simp_all

theorem ofSegment?_name (name : String) (named : IsName name) :
    Path.Component.ofSegment? name.toList = some (.name name) := by
  have nonempty : name.toList ≠ [] := by simpa using named.nonempty
  have not_here : name.toList ≠ ['.'] :=
    fun same => named.not_here (String.ext (by simpa using same))
  have not_up : name.toList ≠ ['.', '.'] :=
    fun same => named.not_up (String.ext (by simpa using same))
  simp [Path.Component.ofSegment?, Path.isVoid, nonempty, not_here, not_up]

theorem filterMap_ofSegment? (proper : l.IsProper) :
    (l.map String.toList).filterMap Path.Component.ofSegment? = l.map Path.Component.name := by
  induction l with
  | nil => rfl
  | cons name more ih =>
    have first := ofSegment?_name name (proper name List.mem_cons_self)
    have others := ih fun n member => proper n (List.mem_cons_of_mem _ member)
    simp only [List.map_cons, List.filterMap_cons, first, others]

/-- The components of the absolute path of a location are the root and its names. -/
theorem path_components (proper : l.IsProper) :
    l.path.components = .root :: l.map Path.Component.name := by
  have anchored : l.path.anchor = .root := by simp [Path.anchor, path_isAbsolute]
  -- every stretch means something, so that none is lost
  have names := filterMap_ofSegment? l proper
  rw [Path.components, anchored, Path.body, anchored, if_neg (by decide), path_segments l proper]
  split
  next empty =>
    subst empty
    decide
  next =>
    rw [List.drop_one, List.tail_cons, names]
    rfl

/-- One location lies at or below another if its absolute path starts with that of the other. -/
theorem path_startsWith_iff (root : Location) (proper : l.IsProper) (upper : root.IsProper) :
    l.path.startsWith root.path = true ↔ root <+: l := by
  rw [Path.startsWith, path_components l proper, path_components root upper,
    List.isPrefixOf_iff_prefix, List.cons_prefix_cons]
  have injective : Function.Injective Path.Component.name := fun _ _ same => by cases same; rfl
  simp [List.prefix_map_iff_of_injective injective]

variable {l} {other : Location}

theorem path_injective (proper : l.IsProper) (proper' : other.IsProper)
    (same : l.path = other.path) : l = other := by
  rw [← l.path_names proper, same, other.path_names proper']

/-- The absolute paths of different locations do not stand for the same place. -/
theorem isSameAs_path_iff (proper : l.IsProper) (proper' : other.IsProper) :
    l.path.isSameAs other.path = true ↔ l = other := by
  have injective : Function.Injective Path.Component.name := fun _ _ same => by cases same; rfl
  simp [Path.isSameAs, path_components l proper, path_components other proper',
    injective.list_map.eq_iff]

end Location

end Workbench
