import Mathlib.Data.List.Chain
import Workbench.Proofs.Pattern.Taking
import Workbench.Proofs.Script.Types

/-!
# Signatures of functions

A signature with a type behind each parameter and behind the list is left with the names alone. The
rules for declarations do not fit in it, since the only brace stands behind the type of the result,
and those for casts and calls find nothing where the types have been taken away.
-/
namespace Workbench.Script

open Pattern

/-- A type: a word, perhaps with arguments, perhaps an array. -/
structure PlainType where
  word : String
  /-- What stands between the angle brackets, if there are any. -/
  arguments : Option String
  isArray : Bool
  nonempty : word ≠ ""
  isWord : ∀ c ∈ word.toList, Text.isWord c = true
  isPlain : ∀ a ∈ arguments, a ≠ "" ∧ ∀ c ∈ a.toList, c ∉ ['>', '\x7b', '\x7d']

namespace PlainType

variable (t : PlainType)

def brackets : String :=
  match t.arguments with
  | none => ""
  | some a => "<" ++ a ++ ">"

def array : String := if t.isArray then "[]" else ""

def text : String := t.word ++ t.brackets ++ t.array

theorem isName : IsName t.word.toList := ⟨by simpa using t.nonempty, t.isWord⟩

theorem braceless : '\x7b' ∉ t.text.toList := by
  have word : '\x7b' ∉ t.word.toList := fun listed => absurd (t.isWord _ listed) (by decide)
  have brackets : '\x7b' ∉ t.brackets.toList := by
    unfold brackets
    split
    next => simp
    next a known =>
      have plain := (t.isPlain a known).2
      simpa using fun listed => plain _ listed (by simp)
  have array : '\x7b' ∉ t.array.toList := by
    unfold array
    split <;> simp
  simp [text, word, brackets, array]

/-- A type is a word, or ends with a bracket. -/
theorem text_cases : t.text.toList = t.word.toList ∨
    ∃ front z, t.text.toList = front ++ [z] ∧ z ∈ ['>', ']'] := by
  unfold text array
  cases t.isArray with
  | true => exact .inr ⟨(t.word ++ t.brackets).toList ++ ['['], ']', by simp, by simp⟩
  | false =>
    unfold brackets
    cases t.arguments with
    | none => simp
    | some a => exact .inr ⟨t.word.toList ++ '<' :: a.toList, '>', by simp, by simp⟩

/-- What may come behind a type: no more of it. -/
def Stops (rest : List Char) : Prop :=
  ∀ c ∈ rest.head?, Text.isWord c = false ∧ c ≠ '<' ∧ c ≠ '['

variable {rest : List Char}

/-- Behind the word comes a bracket, or what follows the type. -/
theorem head?_behind_word {c : Char}
    (first : c ∈ (t.brackets.toList ++ t.array.toList ++ rest).head?) :
    c = '<' ∨ c = '[' ∨ c ∈ rest.head? := by
  cases known : t.arguments with
  | some a => exact .inl (by simpa [brackets, known, eq_comm] using first)
  | none =>
    cases listed : t.isArray with
    | true => exact .inr (.inl (by simpa [brackets, array, known, listed, eq_comm] using first))
    | false => exact .inr (.inr (by simpa [brackets, array, known, listed] using first))

theorem takes_array (stops : Stops rest) (before : List Char) :
    (Pattern.maybe (.capture 2 (literal "[]"))).Takes before t.array.toList rest := by
  unfold array
  split
  · exact .present (.capture 2 (.literal "[]" before rest))
  · refine .absent fun ys groups rest' reads same => ?_
    obtain ⟨_, own, -⟩ := (reads_capture_iff 2).mp reads
    obtain ⟨rfl, -⟩ := (reads_literal_iff _ _ _).mp own
    exact (stops '[' (by rw [same]; rfl)).2.2 rfl

theorem takes_brackets (stops : Stops rest) (before : List Char) :
    (Pattern.maybe (.capture 1 typeArguments)).Takes before t.brackets.toList
      (t.array.toList ++ rest) := by
  unfold brackets
  split
  next =>
    refine .absent fun ys groups rest' reads same => ?_
    obtain ⟨_, own, -⟩ := (reads_capture_iff 1).mp reads
    simp only [typeArguments, reads_all_iff, readsAll_literal_iff] at own
    obtain ⟨_, -, rfl⟩ := own
    unfold array at same
    split at same
    · simp at same
    · exact (stops '<' (by simpa using congrArg List.head? same)).2.1 rfl
  next a known =>
    obtain ⟨nonempty, plain⟩ := t.isPlain a known
    have inside : ∀ c ∈ a.toList, (CharClass.except ['>']).has c = true := by
      intro c listed
      have other := plain c listed
      simp only [List.mem_cons, not_or] at other
      simp [CharClass.has, other.1]
    have whole : ("<" ++ a ++ ">").toList = "<".toList ++ (a.toList ++ ">".toList) := by simp
    rw [whole]
    exact .present (.capture 1 (takes_all (.next (.literal "<" _ _)
      (.next (.oneOrMore (by simpa using nonempty) inside (by simp [CharClass.has]))
        (.last (.literal ">" _ _))))))

/-- A type is taken with the colon in front of it. -/
theorem takes_annotation (stops : Stops rest) (before : List Char) :
    typeMark.Takes before (": " ++ t.text).toList rest := by
  have ends : ∀ c ∈ (t.brackets.toList ++ t.array.toList ++ rest).head?,
      CharClass.word.has c = false := by
    intro c first
    rcases t.head?_behind_word first with rfl | rfl | first
    · decide
    · decide
    · exact (stops c first).1
  have solid : ∀ c ∈ (t.word.toList ++ (t.brackets.toList ++ t.array.toList) ++ rest).head?,
      CharClass.blank.has c = false := by
    obtain ⟨a, word, chars⟩ := List.exists_cons_of_ne_nil t.isName.1
    intro c first
    obtain rfl : a = c := by simpa [chars] using first
    exact Text.isBlank_of_isWord (t.isWord a (by simp [chars]))
  have whole : (": " ++ t.text).toList = ":".toList ++ ([' '] ++ (t.word.toList ++
      (t.brackets.toList ++ t.array.toList))) := by simp [text]
  rw [whole]
  exact takes_all (.next (.literal ":" _ _) (.next (.many (by decide) solid)
    (.next (.oneOrMore t.isName.1 t.isName.2 ends)
      (.next (t.takes_brackets stops _) (.last (t.takes_array stops _))))))

end PlainType

/-! ### The rules for declarations -/

/-- Parameters, each with its type. -/
def typed (parameters : List (Identifier × PlainType)) : String :=
  ", ".intercalate (parameters.map fun (name, type) => name.text ++ ": " ++ type.text)

def named (parameters : List (Identifier × PlainType)) : String :=
  ", ".intercalate (parameters.map fun (name, _) => name.text)

theorem toList_typed_cons (name : Identifier) (type : PlainType) (next : Identifier × PlainType)
    (more : List (Identifier × PlainType)) : (typed ((name, type) :: next :: more)).toList =
      name.text.toList ++
        ((": " ++ type.text).toList ++ (", ".toList ++ (typed (next :: more)).toList)) := by
  simp [typed, String.toList_intercalate]

theorem toList_named_cons (name : Identifier) (type : PlainType) (next : Identifier × PlainType)
    (more : List (Identifier × PlainType)) : (named ((name, type) :: next :: more)).toList =
      name.text.toList ++ (", ".toList ++ (named (next :: more)).toList) := by
  simp [named, String.toList_intercalate]

structure Signature where
  name : Identifier
  parameters : List (Identifier × PlainType)
  result : PlainType

theorem typed_braceless (parameters : List (Identifier × PlainType)) :
    '\x7b' ∉ (typed parameters).toList := by
  intro listed
  rw [typed, String.toList_intercalate, List.map_map] at listed
  rcases mem_intercalate listed with mark | ⟨_, entry, inside⟩
  · exact absurd mark (by decide)
  · obtain ⟨⟨name, type⟩, -, rfl⟩ := List.mem_map.mp entry
    simp [name.notMem (show '\x7b' ∈ marks by decide), type.braceless] at inside

namespace Signature

variable (s : Signature)

def opening : String := "function " ++ s.name.text ++ "("

def text : String :=
  s.opening ++ typed s.parameters ++ "): " ++ s.result.text ++ " \x7b\x7d"

def bare : String := s.opening ++ named s.parameters ++ ") \x7b\x7d"

/-- What stands in front of the type of the result. -/
def front : List Char := (s.opening ++ typed s.parameters ++ "):").toList

theorem toList_text : s.text.toList =
    s.front ++ [' '] ++ s.result.text.toList ++ [' '] ++ '\x7b' :: ['\x7d'] := by
  simp [text, front]

theorem exists_front : ∃ xs, s.front = xs ++ [':'] :=
  ⟨(s.opening ++ typed s.parameters ++ ")").toList, by simp [front]⟩

/-- In front of a brace only what comes before the one brace of a signature can be read, and so
blanks come behind the type of the result. -/
theorem eq_of_brace {xs gap more : List Char} (same : s.text.toList = xs ++ gap ++ '\x7b' :: more)
    (blank : ∀ c ∈ gap, Text.isBlank c = true)
    (solid : ∀ c ∈ xs.getLast?, Text.isBlank c = false) :
    s.front ++ [' '] ++ s.result.text.toList = xs := by
  have ahead : '\x7b' ∉ s.front ++ [' '] ++ s.result.text.toList ++ [' '] := by
    simp [front, opening, typed_braceless, PlainType.braceless,
      s.name.notMem (show '\x7b' ∈ marks by decide)]
  rw [toList_text] at same
  -- the brace that is read is the first one
  have cut := ((List.append_cons_inj_of_notMem ahead (by simp)).mp same).1
  refine (spans_unique_right (by decide) blank (fun c last => ?_) solid cut).1
  rcases s.result.text_cases with word | ⟨init, z, chars, mark⟩
  · rw [word] at last
    exact (s.result.isName.last c last).2
  · rw [chars, ← List.append_assoc, List.getLast?_concat] at last
    obtain rfl := Option.some.inj last
    have solid : ∀ z ∈ ['>', ']'], Text.isBlank z = false := by decide
    exact solid z mark

theorem apply_interface : interfaceRule.apply s.text.toList = s.text.toList := by
  refine apply_of_unread fun before ys groups rest reads same => ?_
  obtain ⟨front', gap, word, gap', more, -, isGap, isName, blank, rfl⟩ :=
    exists_of_reads_interface reads
  have whole : s.front ++ [' '] ++ s.result.text.toList =
      before ++ front' ++ "interface".toList ++ gap ++ word := by
    refine @s.eq_of_brace _ gap' (more ++ rest) (by simp [same]) blank fun c last => ?_
    exact (isName.last c last).2
  rcases s.result.text_cases with chars | ⟨init, z, chars, mark⟩
  · -- the type is the name, so that the keyword would end with the colon
    rw [chars] at whole
    have gapped : ∀ c ∈ (before ++ front' ++ "interface".toList ++ gap).getLast?,
        Text.isWord c = false := by
      intro c last
      rw [List.getLast?_append_of_ne_nil _ isGap.1] at last
      exact Text.isWord_of_isBlank (isGap.2 c (List.mem_of_getLast? last))
    have words := (spans_unique_right s.result.isName.2 isName.2 (by simp; decide) gapped whole).1
    obtain ⟨xs, front⟩ := s.exists_front
    have keyword := (spans_unique_right (by decide) isGap.2 (by simp [front]; decide)
      (by simp; decide) words).1
    rw [front, show "interface".toList = "interfac".toList ++ ['e'] from rfl,
      ← List.append_assoc] at keyword
    exact absurd (List.append_inj' keyword rfl).2 (by decide)
  · -- no name ends with a bracket
    rw [chars, ← List.append_assoc] at whole
    have ends := (isName.last z (by rw [← whole]; exact List.getLast?_concat)).1
    have others : ∀ z ∈ ['>', ']'], Text.isWord z = false := by decide
    simp [others z mark] at ends

theorem apply_alias : aliasRule.apply s.text.toList = s.text.toList := by
  refine apply_of_unread fun before ys groups rest reads same => ?_
  obtain ⟨front', gap, word, gap', gap'', more, -, -, -, -, blank, rfl⟩ :=
    exists_of_reads_alias reads
  have solid : ∀ c ∈ (before ++ front' ++ "type".toList ++ gap ++ word ++ gap' ++ ['=']).getLast?,
      Text.isBlank c = false := by
    intro c last
    rw [List.getLast?_concat] at last
    obtain rfl := Option.some.inj last
    decide
  have whole := @s.eq_of_brace _ gap'' (more ++ rest) (by simp [same]) blank solid
  -- no type ends with an equals sign
  rcases s.result.text_cases with chars | ⟨init, z, chars, mark⟩
  · rw [chars] at whole
    have ends := s.result.isName.last '=' (by rw [whole]; exact List.getLast?_concat)
    exact absurd ends.1 (by decide)
  · rw [chars, ← List.append_assoc] at whole
    obtain rfl := List.singleton_inj.mp (List.append_inj' whole rfl).2
    exact absurd mark (by decide)

end Signature

/-! ### Annotations -/

theorem annotationRule_keeps {xs : List Char} (free : ':' ∉ xs) (rest : List Char) :
    annotationRule.apply (xs ++ rest) = xs ++ annotationRule.apply rest :=
  (keeps_of_notMem (fun _ _ => head?_of_reads_annotation) free rest).apply (by decide)

theorem annotationRule_removes (t : PlainType) {rest : List Char} (stops : PlainType.Stops rest) :
    annotationRule.apply ((": " ++ t.text).toList ++ rest) = annotationRule.apply rest := by
  have takes : annotationRule.pattern.Takes [] (": " ++ t.text).toList rest :=
    t.takes_annotation stops []
  rw [RewriteRule.apply, RewriteRule.applyFrom_takes rfl takes (by simp),
    RewriteRule.applyFrom_of_isEdgeless (by decide) (_ ++ []) []]
  rfl

/-- Parameters lose their types, one after another. -/
theorem annotationRule_parameters (parameters : List (Identifier × PlainType))
    (rest : List Char) : annotationRule.apply ((typed parameters).toList ++ ')' :: rest) =
      (named parameters).toList ++ annotationRule.apply (')' :: rest) := by
  -- a comma or the bracket behind a parameter ends its type
  induction parameters with
  | nil => rfl
  | cons first more ih =>
    obtain ⟨name, type⟩ := first
    have free : ':' ∉ name.text.toList := name.notMem (by decide)
    cases more with
    | nil =>
      have whole : (typed [(name, type)]).toList =
          name.text.toList ++ (": " ++ type.text).toList := by simp [typed]
      rw [whole, List.append_assoc, annotationRule_keeps free, annotationRule_removes type ?_]
      · simp [named]
      · simp [PlainType.Stops]
        decide
    | cons next more =>
      rw [toList_typed_cons, toList_named_cons, List.append_assoc, annotationRule_keeps free,
        List.append_assoc, annotationRule_removes type ?_, List.append_assoc,
        annotationRule_keeps (by decide), ih, List.append_assoc, List.append_assoc]
      simp [PlainType.Stops]
      decide

/-! ### Casts and calls -/

/-- A text in which no blank comes behind the last letter of the keyword of casts. -/
def IsCastless (xs : List Char) : Prop :=
  xs.IsChain fun a b => a = 's' → Text.isBlank b = false

instance : DecidablePred IsCastless := fun xs =>
  inferInstanceAs (Decidable (xs.IsChain fun a b => a = 's' → Text.isBlank b = false))

theorem IsCastless.append {xs ys : List Char} (first : IsCastless xs) (second : IsCastless ys)
    (starts : ∀ c ∈ ys.head?, Text.isBlank c = false) : IsCastless (xs ++ ys) :=
  List.isChain_append.mpr ⟨first, second, fun _ _ c here _ => starts c here⟩

theorem IsCastless.of_solid {xs : List Char} (solid : ∀ c ∈ xs, Text.isBlank c = false) :
    IsCastless xs := by
  induction xs with
  | nil => exact .nil
  | cons a xs ih =>
    rw [List.forall_mem_cons] at solid
    have single : IsCastless [a] := .singleton a
    exact single.append (ih solid.2) fun c first => solid.2 c (List.mem_of_head? first)

theorem castRule_keeps {xs : List Char} (castless : IsCastless xs) : castRule.apply xs = xs := by
  refine apply_of_unread fun front ys groups rest reads same => ?_
  obtain ⟨gap, word, ⟨nonempty, blank⟩, -, rfl⟩ := exists_of_reads_cast reads
  obtain ⟨c, gap, rfl⟩ := List.exists_cons_of_ne_nil nonempty
  -- the keyword has a blank behind its last letter
  have cut : xs = (front ++ ['a']) ++ 's' :: c :: (gap ++ word ++ rest) := by simp [same]
  rw [cut, IsCastless, List.isChain_append_cons_cons] at castless
  have solid := castless.2.1 rfl
  simp [blank c List.mem_cons_self] at solid

theorem isCastless_named (parameters : List (Identifier × PlainType)) :
    IsCastless (named parameters).toList ∧
      ∀ c ∈ (named parameters).toList.head?, Text.isBlank c = false := by
  induction parameters with
  | nil => exact ⟨.nil, by simp [named]⟩
  | cons first more ih =>
    obtain ⟨name, type⟩ := first
    have castless : IsCastless name.text.toList := .of_solid name.solid
    obtain ⟨a, rest, chars, letter⟩ := name.exists_first
    have solid := ((isNameChar_iff a).mp letter).1
    cases more with
    | nil =>
      have whole : (named [(name, type)]).toList = name.text.toList := by simp [named]
      rw [whole]
      exact ⟨castless, by simpa [chars] using solid⟩
    | cons next more =>
      have comma : IsCastless ", ".toList := by decide
      rw [toList_named_cons]
      refine ⟨castless.append (comma.append ih.1 ih.2) ?_, by simpa [chars] using solid⟩
      simp
      decide

namespace Signature

variable (s : Signature)

theorem apply_annotation : annotationRule.apply s.text.toList = s.bare.toList := by
  have name : ':' ∉ s.name.text.toList := s.name.notMem (by decide)
  have opening : ':' ∉ s.opening.toList := by simp [opening, name]
  have whole : s.text.toList = s.opening.toList ++ ((typed s.parameters).toList ++ ')' ::
      ((": " ++ s.result.text).toList ++ " \x7b\x7d".toList)) := by simp [text]
  have stops : PlainType.Stops " \x7b\x7d".toList := by
    simp [PlainType.Stops]
    decide
  have last : annotationRule.apply " \x7b\x7d".toList = " \x7b\x7d".toList :=
    (keeps_of_notMem (fun _ _ => head?_of_reads_annotation) (by decide) []).applyFrom_eq []
  rw [whole, annotationRule_keeps opening, annotationRule_parameters, ← List.singleton_append,
    annotationRule_keeps (by decide), annotationRule_removes s.result stops, last]
  simp [bare]

theorem isCastless_bare : IsCastless s.bare.toList := by
  have keyword : IsCastless "function ".toList := by decide
  have bracket : IsCastless "(".toList := by decide
  have ending : IsCastless ") \x7b\x7d".toList := by decide
  obtain ⟨names, starts⟩ := isCastless_named s.parameters
  have name : IsCastless s.name.text.toList := .of_solid s.name.solid
  have solid : ∀ c ∈ s.name.text.toList.head?, Text.isBlank c = false :=
    fun c first => s.name.solid c (List.mem_of_head? first)
  have mark : Text.isBlank '(' = false ∧ Text.isBlank ')' = false := by decide
  simp only [bare, opening, String.toList_append]
  exact (((keyword.append name solid).append bracket (by simpa using mark.1)).append names
    starts).append ending (by simpa using mark.2)

theorem bracketless_bare : '<' ∉ s.bare.toList := by
  have names : '<' ∉ (named s.parameters).toList := by
    intro listed
    rw [named, String.toList_intercalate, List.map_map] at listed
    rcases mem_intercalate listed with mark | ⟨_, entry, inside⟩
    · exact absurd mark (by decide)
    · obtain ⟨⟨name, type⟩, -, rfl⟩ := List.mem_map.mp entry
      exact name.notMem (by decide) inside
  simp [bare, opening, names, s.name.notMem (show '<' ∈ marks by decide)]

/-- A signature loses its types and nothing else. -/
theorem stripTypes_signature : stripTypes s.text = s.bare := by
  have calls : callRule.apply s.bare.toList = s.bare.toList :=
    (keeps_of_notMem (fun _ _ => head?_of_reads_call) s.bracketless_bare []).applyFrom_eq []
  have rewritten : applyAll typeRules s.text.toList = s.bare.toList := by
    simp only [typeRules_eq, applyAll, List.foldl_cons, List.foldl_nil, s.apply_interface,
      s.apply_alias, s.apply_annotation, castRule_keeps s.isCastless_bare, calls]
  rw [stripTypes, rewritten, String.ofList_toList]

/-- A function with a parameter of each kind of type: a word, a word with arguments, an array, and an
array of a word with arguments. -/
def greeting : Signature where
  name := ⟨"greet", by decide, by decide⟩
  parameters :=
    [(⟨"name", by decide, by decide⟩, ⟨"string", none, false, by decide, by decide, by simp⟩),
     (⟨"tags", by decide, by decide⟩,
      ⟨"Array", some "string", false, by decide, by decide, by simp⟩),
     (⟨"ids", by decide, by decide⟩, ⟨"number", none, true, by decide, by decide, by simp⟩),
     (⟨"pairs", by decide, by decide⟩,
      ⟨"Map", some "b: c, d", true, by decide, by decide, by simp⟩)]
  result := ⟨"void", none, false, by decide, by decide, by simp⟩

/-- Colons and commas between the brackets go with them. -/
theorem greeting_bare : stripTypes ("function greet(name: string, tags: Array<string>, " ++
      "ids: number[], pairs: Map<b: c, d>[]): void \x7b\x7d") =
    "function greet(name, tags, ids, pairs) \x7b\x7d" := by
  have text : greeting.text = "function greet(name: string, tags: Array<string>, " ++
      "ids: number[], pairs: Map<b: c, d>[]): void \x7b\x7d" := by decide
  have bare : greeting.bare = "function greet(name, tags, ids, pairs) \x7b\x7d" := by decide
  rw [← text, ← bare]
  exact greeting.stripTypes_signature

end Signature

end Workbench.Script
