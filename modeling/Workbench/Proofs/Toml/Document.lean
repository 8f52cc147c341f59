import Workbench.Proofs.Toml.Value

/-! A document of sections stands for the tables that it was written for. -/
namespace Workbench.Toml

/-- A word that is a key without marks around it. -/
def IsBare (word : String) : Prop := word ≠ "" ∧ ∀ c ∈ word.toList, isKeyChar c = true

theorem isBare_iff (word : String) : IsBare word ↔ word.toList ≠ [] ∧
    word.toList.all isKeyChar = true := by
  simp [IsBare]

instance (word : String) : Decidable (IsBare word) := decidable_of_iff' _ (isBare_iff word)

/-- A value that is told by its text, and in which lists do not stand too deep in one another. -/
structure IsPlain (v : Toml) : Prop where
  told : v.isTold = true
  deep : v.depth < nestingLimit

/-! ### Lines -/

theorem isInk_of_isKeyChar (c : Char) (inside : isKeyChar c = true) : IsInk c ∧ c ≠ '[' := by
  have apart (other : Char) (outside : isKeyChar other = false) : c ≠ other := by
    rintro rfl
    rw [inside] at outside
    cases outside
  refine ⟨⟨?_, ⟨apart _ rfl, apart _ rfl⟩, apart _ rfl⟩, apart _ rfl⟩
  simp [isSpace, apart ' ' rfl, apart '\t' rfl]

theorem IsBare.exists_cons {word : String} (bare : IsBare word) :
    ∃ c rest, word.toList = c :: rest ∧ isKeyChar c = true := by
  cases chars : word.toList with
  | nil => exact absurd (String.toList_injective chars) bare.1
  | cons c rest => exact ⟨c, rest, rfl, bare.2 c (by simp [chars])⟩

theorem skipSpace_of_ink (c : Char) (rest : List Char) (ink : IsInk c) :
    skipSpace (c :: rest) = c :: rest := by
  simp [skipSpace, ink.solid]

/-- A key is read up to what cannot stand in it, and blanks behind it are skipped. -/
theorem key_bare (word : String) (bare : IsBare word) (room : Nat) (c d : Char)
    (rest left : List Char) (stop : isKeyChar c = false)
    (behind : skipSpace (c :: rest) = d :: left) (apart : d ≠ '.') :
    key (room + 1) (word.toList ++ c :: rest) = some ([word], d :: left) := by
  have part : keyPart (word.toList ++ c :: rest) = some (word, d :: left) := by
    obtain ⟨first, more, same, inside⟩ := bare.exists_cons
    have kept : skipSpace (word.toList ++ c :: rest) = word.toList ++ c :: rest := by
      rw [same, List.cons_append, skipSpace_of_ink _ _ (isInk_of_isKeyChar first inside).1]
    have taken : (word.toList ++ c :: rest).takeWhile isKeyChar = word.toList := by
      rw [List.takeWhile_append_of_pos bare.2, List.takeWhile_cons_of_neg (by simp [stop]),
        List.append_nil]
    have left : (word.toList ++ c :: rest).dropWhile isKeyChar = c :: rest := by
      rw [List.dropWhile_append_of_pos bare.2, List.dropWhile_cons_of_neg (by simp [stop])]
    simp only [keyPart, kept, taken, left, behind]
    rw [same]
    simp only [← same, String.ofList_toList]
  rw [key, part]
  -- with no dot behind it, the part is the whole key
  split
  next same => cases same
  next same =>
    cases same
    exact absurd rfl apart
  next same =>
    cases same
    rfl

theorem statement_header (name : String) (bare : IsBare name) (rest : List Char) :
    statement ('[' :: (name.toList ++ ']' :: rest)) = some (.header [name], rest) := by
  have read := key_bare name bare 78 ']' ']' rest rest rfl rfl (by decide)
  obtain ⟨first, more, same, inside⟩ := bare.exists_cons
  have apart := (isInk_of_isKeyChar first inside).2
  rw [same, List.cons_append] at read ⊢
  unfold statement
  split
  next double =>
    cases double
    exact absurd rfl apart
  next single =>
    cases single
    simp [nestingLimit, read, mark]
  next _ other => exact absurd rfl (other _)

theorem statement_entry (word : String) (bare : IsBare word) (v : Toml) (plain : v.IsPlain)
    (rest : List Char) (ends : EndsValue rest) :
    statement (word.toList ++ " = ".toList ++ chars v ++ rest) = some (.entry [word] v, rest) := by
  have text : word.toList ++ " = ".toList ++ chars v ++ rest =
      word.toList ++ ' ' :: '=' :: ' ' :: (chars v ++ rest) := by simp
  have read := key_bare word bare 78 ' ' '=' ('=' :: ' ' :: (chars v ++ rest))
    (' ' :: (chars v ++ rest)) rfl rfl (by decide)
  have skipped : skipSpace (' ' :: (chars v ++ rest)) = chars v ++ rest := by
    obtain ⟨c, more, same, ink, -⟩ := chars_head v plain.told
    rw [same, List.cons_append]
    exact skipSpace_of_ink c (more ++ rest) ink
  -- a line that begins with no bracket is no header
  obtain ⟨first, more, same, inside⟩ := bare.exists_cons
  have apart := (isInk_of_isKeyChar first inside).2
  rw [text]
  unfold statement
  split
  next double =>
    rw [same] at double
    exact absurd (List.cons.inj double).1 apart
  next single =>
    rw [same] at single
    exact absurd (List.cons.inj single).1 apart
  next =>
    have value := readsBack v plain.told
      (2 * (word.toList ++ ' ' :: '=' :: ' ' :: (chars v ++ rest)).length + 2) 79 rest ends
      (by simp; omega) (Nat.le_of_lt_succ plain.deep)
    rw [show nestingLimit - 1 = 79 from rfl]
    simp only [read, mark, if_true, skipped, value, Option.bind_eq_bind, Option.bind_some]
    rfl

/-- Text that reads as some lines, with a step for each character. -/
def ReadsAs (s : List Char) (lines : List Statement) : Prop :=
  ∀ fuel, s.length < fuel → statements fuel s = some lines

namespace ReadsAs

variable {s : List Char} {lines : List Statement}

theorem nil : ReadsAs [] [] := by
  intro fuel enough
  obtain ⟨fuel, rfl⟩ := Nat.exists_eq_add_of_le' (Nat.one_le_of_lt enough)
  rw [statements]
  rfl

theorem blank (reads : ReadsAs s lines) : ReadsAs ('\n' :: s) lines := by
  intro fuel enough
  obtain ⟨fuel, rfl⟩ := Nat.exists_eq_add_of_le' (Nat.one_le_of_lt enough)
  rw [List.length_cons] at enough
  rw [statements]
  exact reads fuel (by omega)

theorem cons (reads : ReadsAs s lines) (c : Char) (front : List Char) (line : Statement)
    (ink : IsInk c) (first : statement (c :: front ++ '\n' :: s) = some (line, '\n' :: s)) :
    ReadsAs (c :: front ++ '\n' :: s) (line :: lines) := by
  intro fuel enough
  obtain ⟨fuel, rfl⟩ := Nat.exists_eq_add_of_le' (Nat.one_le_of_lt enough)
  have rest := reads fuel (by simp at enough; omega)
  -- the line is neither blank nor a comment
  have filled : afterLine? (c :: (front ++ '\n' :: s)) = none := by
    have kept : dropComment (c :: (front ++ '\n' :: s)) = c :: (front ++ '\n' :: s) := by
      unfold dropComment
      split
      next same => exact absurd (List.cons.inj same).1 ink.uncommented
      next => rfl
    rw [afterLine?, skipSpace_of_ink _ _ ink]
    simp only [kept, breakLength_of_level c ink.level, reduceCtorEq, if_false, if_true]
  have ended : afterLine? ('\n' :: s) = some s := rfl
  rw [List.cons_append] at first ⊢
  rw [statements, skipSpace_of_ink _ _ ink]
  simp only [filled, first, ended, rest, Option.bind_eq_bind, Option.bind_some]
  rfl

end ReadsAs

namespace Section

/-- A section with a plain name, and plain keys and values in it. -/
structure IsPlain (s : Section) : Prop where
  name : IsBare s.name
  entries : ∀ e ∈ s.entries, IsBare e.1 ∧ e.2.IsPlain

def lines (s : Section) : List Statement :=
  .header [s.name] :: s.entries.map fun (key, v) => .entry [key] v

variable {rest : List Char} {later : List Statement}

theorem readsAs_entries (entries : List (String × Toml))
    (plain : ∀ e ∈ entries, IsBare e.1 ∧ e.2.IsPlain)
    (reads : ReadsAs rest later) :
    ReadsAs
      ((entries.flatMap fun (key, v) => key.toList ++ " = ".toList ++ Toml.chars v ++ ['\n']) ++ rest)
      ((entries.map fun (key, v) => .entry [key] v) ++ later) := by
  induction entries with
  | nil => exact reads
  | cons e entries ih =>
    obtain ⟨key, v⟩ := e
    obtain ⟨bare, written⟩ := plain (key, v) List.mem_cons_self
    have tail := ih fun e listed => plain e (List.mem_cons_of_mem _ listed)
    obtain ⟨c, more, same, inside⟩ := bare.exists_cons
    have first := statement_entry key bare v written ('\n' :: (entries.flatMap fun (key, v) =>
      key.toList ++ " = ".toList ++ Toml.chars v ++ ['\n']) ++ rest) (.inl rfl)
    have line := tail.cons c (more ++ " = ".toList ++ Toml.chars v) (.entry [key] v)
      (isInk_of_isKeyChar c inside).1 (by simpa [same] using first)
    simpa [same] using line

theorem readsAs_chars (s : Section) (plain : s.IsPlain) (reads : ReadsAs rest later) :
    ReadsAs (s.chars ++ rest) (s.lines ++ later) := by
  have tail := readsAs_entries s.entries plain.entries reads
  have line := tail.cons '[' (s.name.toList ++ [']']) (.header [s.name])
    ⟨by decide, by decide, by decide⟩ (by simpa using statement_header s.name plain.name _)
  simpa [chars, lines] using line

end Section

/-- A document reads as the headers and the lines of its sections. -/
theorem readsAs_render (sections : List Section) (plain : ∀ s ∈ sections, s.IsPlain) :
    ReadsAs (Text.joinWith ['\n'] (sections.map Section.chars))
      (sections.flatMap Section.lines) := by
  induction sections with
  | nil => exact .nil
  | cons s sections ih =>
    have front := plain s List.mem_cons_self
    have tail := ih fun s listed => plain s (List.mem_cons_of_mem _ listed)
    -- a blank line stands between two sections
    cases sections with
    | nil => simpa [Text.joinWith] using s.readsAs_chars front .nil
    | cons next more => simpa [Text.joinWith] using s.readsAs_chars front tail.blank

/-! ### Tables -/

theorem lookup_of_notMem (entries : Entries) (key : String) (free : key ∉ entries.map Prod.fst) :
    entries.lookup key = none := by
  induction entries with
  | nil => rfl
  | cons e entries ih =>
    rw [List.map_cons, List.mem_cons, not_or] at free
    rw [List.lookup_cons, beq_false_of_ne free.1]
    exact ih free.2

section

variable {front : Entries} {key name : String} (absent : front.lookup name = none)
include absent

theorem lookup_concat (node : Node) : (front ++ [(name, node)]).lookup name = some node := by
  simp [List.lookup_append, absent]

theorem putEntry_concat (old node : Node) :
    putEntry name node (front ++ [(name, old)]) = front ++ [(name, node)] := by
  induction front with
  | nil => simp [putEntry]
  | cons e front ih =>
    obtain ⟨k, other⟩ := e
    have apart : k ≠ name := by
      rintro rfl
      simp at absent
    have free : front.lookup name = none := by
      rwa [List.lookup_cons, beq_false_of_ne apart.symm] at absent
    simp [putEntry, apart, ih free]

/-- A value is added to the table that was opened last. -/
theorem add_entry (built : Entries) (free : built.lookup key = none) (v : Toml) :
    Draft.add ⟨front ++ [(name, .table .header built)], [name]⟩ (.entry [key] v) =
      some ⟨front ++ [(name, .table .header (built ++ [(key, .leaf v)]))], [name]⟩ := by
  have inner : addAt [key] v .header built = some (built ++ [(key, .leaf v)]) := by
    simp [addAt, alter, addValue, free]
  simp [Draft.add, alter, lookup_concat absent, inner, putEntry_concat absent]

theorem add_entries (built : Entries) (entries : List (String × Toml))
    (distinct : (built.map Prod.fst ++ entries.map Prod.fst).Nodup) :
    (entries.map fun (key, v) => Statement.entry [key] v).foldlM Draft.add
        ⟨front ++ [(name, .table .header built)], [name]⟩ =
      some ⟨front ++ [(name, .table .header
        (built ++ entries.map fun (key, v) => (key, .leaf v)))], [name]⟩ := by
  induction entries generalizing built with
  | nil => simp
  | cons e entries ih =>
    obtain ⟨key, v⟩ := e
    -- the key is not among those that stand before it
    have free := lookup_of_notMem built key fun listed =>
      (List.nodup_append.mp distinct).2.2 key listed key List.mem_cons_self rfl
    have tail := ih (built ++ [(key, .leaf v)]) (by simpa using distinct)
    rw [List.map_cons, List.foldlM_cons, add_entry absent built free]
    simpa using tail

end

namespace Section

/-- The table of a section, as it is being built. -/
def node (s : Section) : String × Node :=
  (s.name, .table .header (s.entries.map fun (key, v) => (key, .leaf v)))

/-- The lines of a section add its table, and leave it open. -/
theorem add_lines (s : Section) (keys : (s.entries.map Prod.fst).Nodup) (front : Entries)
    (current : List String) (absent : front.lookup s.name = none) :
    s.lines.foldlM Draft.add ⟨front, current⟩ = some ⟨front ++ [s.node], [s.name]⟩ := by
  have opened : Draft.add ⟨front, current⟩ (.header [s.name]) =
      some ⟨front ++ [(s.name, .table .header [])], [s.name]⟩ := by
    simp [Draft.add, alter, openTable, absent]
  have filled := add_entries absent [] s.entries (by simpa using keys)
  rw [lines, List.foldlM_cons, opened]
  simpa [node] using filled

end Section

theorem add_sections (sections : List Section)
    (keys : ∀ s ∈ sections, (s.entries.map Prod.fst).Nodup) (front : Entries)
    (current : List String) (names : (front.map Prod.fst ++ sections.map Section.name).Nodup) :
    ∃ last, (sections.flatMap Section.lines).foldlM Draft.add ⟨front, current⟩ =
      some ⟨front ++ sections.map Section.node, last⟩ := by
  induction sections generalizing front current with
  | nil => exact ⟨current, by simp⟩
  | cons s sections ih =>
    have absent := lookup_of_notMem front s.name fun listed =>
      (List.nodup_append.mp names).2.2 s.name listed s.name List.mem_cons_self rfl
    have first := s.add_lines (keys s List.mem_cons_self) front current absent
    obtain ⟨last, tail⟩ := ih (fun s listed => keys s (List.mem_cons_of_mem _ listed))
      (front ++ [s.node]) [s.name] (by simpa [Section.node] using names)
    refine ⟨last, ?_⟩
    rw [List.flatMap_cons, List.foldlM_append, first]
    simpa using tail

theorem entryValues_leaves (entries : List (String × Toml)) :
    Node.entryValues (entries.map fun (key, v) => (key, .leaf v)) = entries := by
  induction entries with
  | nil => rfl
  | cons e entries ih =>
    rw [List.map_cons, Node.entryValues, ih]
    rfl

theorem entryValues_nodes (sections : List Section) :
    Node.entryValues (sections.map Section.node) =
      sections.map fun s => (s.name, .table s.entries) := by
  induction sections with
  | nil => rfl
  | cons s sections ih =>
    rw [List.map_cons, List.map_cons, Section.node, Node.entryValues, Node.value,
      entryValues_leaves, ih]

/-- What a document of sections is written as stands for a table with a table for each section. -/
theorem parse?_render (sections : List Section) (plain : ∀ s ∈ sections, s.IsPlain)
    (names : (sections.map Section.name).Nodup)
    (keys : ∀ s ∈ sections, (s.entries.map Prod.fst).Nodup) :
    parse? (render sections) =
      some (.table (sections.map fun s => (s.name, .table s.entries))) := by
  have read := readsAs_render sections plain
  obtain ⟨last, built⟩ := add_sections sections keys [] [] (by simpa using names)
  have assembled : ofStatements? (sections.flatMap Section.lines) =
      some (.table (sections.map fun s => (s.name, .table s.entries))) := by
    rw [ofStatements?, built]
    simp [entryValues_nodes]
  -- a document does not begin with a byte order mark, but with the bracket of a header
  have bracket : ∀ c rest, Text.joinWith ['\n'] (sections.map Section.chars) = c :: rest →
      c = '[' := by
    intro c rest same
    cases sections with
    | nil => simp [Text.joinWith] at same
    | cons s sections =>
      cases sections <;> simp [Text.joinWith, Section.chars] at same <;> exact same.1.symm
  rw [parse?, render, String.toList_ofList]
  split
  next c rest same =>
    have marked : c.toNat ≠ 0xFEFF := by
      rw [bracket c rest same]
      decide
    rw [if_neg marked, ← same, read _ (Nat.lt_succ_self _)]
    exact assembled
  next same =>
    rw [← same, read _ (Nat.lt_succ_self _)]
    exact assembled

end Workbench.Toml
