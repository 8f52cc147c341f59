import Workbench.Proofs.Script.Quoted

/-!
# What the rules for imports read

Each rule looks for a front of its own, and for a specifier of its own. Only two fronts may read
quotes, between braces; they do not where each brace is closed before the first quote.
-/
namespace Workbench.Script

open Pattern

def reactFront : Pattern :=
  .all (literal "import")
    [space, literal "React", .maybe (.capture 1 (.all (literal ",") [gap, block])), space,
      literal "from", space]

def namedFront : Pattern := .all (literal "import") [space, block, space, literal "from", space]

def domFront : Pattern :=
  .all (literal "import") [space, literal "ReactDOM", space, literal "from", space]

def domPackage : Pattern := .all (literal "react-dom") [.maybe (.capture 1 (literal "/client"))]

def clauseFront : Pattern :=
  .all (literal "import")
    [space, .capture 1 (.oneOrMore .fewer (.except ['\'', '"', ';', '\n'])), space, literal "from",
      space]

def effectFront : Pattern := .all (literal "import") [space]

def reactRule : RewriteRule := ⟨reactImport, [.text "// React imported from CDN"]⟩

def namedRule : RewriteRule := ⟨reactNamedImport, [.text "// React imported from CDN"]⟩

def domRule : RewriteRule := ⟨reactDomImport, [.text "// ReactDOM imported from CDN"]⟩

def relativeRule : RewriteRule :=
  ⟨relativeImport, [.text "// import ", .group 1, .text " from ", .group 2]⟩

def effectRule : RewriteRule := ⟨relativeEffectImport, [.text "// import ", .group 1]⟩

theorem importRules_eq :
    importRules = [reactRule, namedRule, domRule, relativeRule, effectRule] := rfl

theorem literal_stop : literal ";" = .one (.of [';']) := rfl

theorem outcomes_quotedPackage (front core : Pattern) :
    outcomes (.seq front (quotedPackage core)) = ((quoting front core).marked ';').outcomes := by
  funext fit
  simp only [quotedPackage, quoting, marked, perhaps, literal_stop, all, List.foldl_cons,
    List.foldl_nil, outcomes, List.flatMap_assoc]

/-- Blanks, and at least one. -/
def IsGap (xs : List Char) : Prop := xs ≠ [] ∧ ∀ c ∈ xs, Text.isBlank c = true

theorem isGap_single : IsGap [' '] := ⟨by simp, List.forall_mem_singleton.mpr rfl⟩

theorem IsGap.plain {xs : List Char} (gap : IsGap xs) : IsUnquoted xs := .of_blank gap.2

/-- A gap that is followed by something solid, and begins where a blank comes before that. -/
theorem IsGap.eq_of_cons {gap xs rest : List Char} {a b : Char} (isGap : IsGap gap)
    (solid : Text.isBlank a = false) (same : gap ++ xs = b :: a :: rest) : xs = a :: rest := by
  rcases gap with _ | ⟨_, _ | ⟨c, gap⟩⟩
  · exact absurd rfl isGap.1
  · exact (List.cons.inj same).2
  · cases same
    have blank := isGap.2 a (by simp)
    simp [solid] at blank

theorem IsGap.eq_of_concat {gap xs front : List Char} {a b : Char} (isGap : IsGap gap)
    (solid : Text.isBlank a = false) (same : xs ++ gap = front ++ [a, b]) : xs = front ++ [a] := by
  have turned : IsGap gap.reverse := ⟨by simpa using isGap.1, by simpa using isGap.2⟩
  have turned' : gap.reverse ++ xs.reverse = b :: a :: front.reverse := by
    simpa using congrArg List.reverse same
  simpa using congrArg List.reverse (turned.eq_of_cons solid turned')

theorem reads_space_iff (xs : List Char) (groups : List (Nat × List Char)) :
    space.Reads xs groups ↔ IsGap xs ∧ groups = [] := by
  rw [space, reads_oneOrMore_iff, IsGap, and_assoc]
  rfl

theorem readsAll_space_iff (rest : List Pattern) (xs : List Char)
    (groups : List (Nat × List Char)) : ReadsAll (space :: rest) xs groups ↔
      ∃ gap zs, IsGap gap ∧ ReadsAll rest zs groups ∧ xs = gap ++ zs := by
  simp only [ReadsAll, reads_space_iff]
  constructor
  · rintro ⟨gap, zs, _, behind, ⟨isGap, rfl⟩, later, rfl, rfl⟩
    exact ⟨gap, zs, isGap, by simpa using later, rfl⟩
  · rintro ⟨gap, zs, isGap, later, rfl⟩
    exact ⟨gap, zs, _, groups, ⟨isGap, rfl⟩, later, rfl, by simp⟩

/-- What every front with a clause ends with. -/
theorem readsAll_from_iff (xs : List Char) (groups : List (Nat × List Char)) :
    ReadsAll [space, literal "from", space] xs groups ↔ groups = [] ∧ ∃ gap gap', IsGap gap ∧
      IsGap gap' ∧ xs = gap ++ ("from".toList ++ gap') := by
  simp only [readsAll_literal_iff, readsAll_space_iff, readsAll_nil_iff]
  constructor
  · rintro ⟨gap, _, isGap, ⟨_, ⟨gap', _, isGap', ⟨rfl, rfl⟩, rfl⟩, rfl⟩, rfl⟩
    exact ⟨rfl, gap, gap', isGap, isGap', by simp⟩
  · rintro ⟨rfl, gap, gap', isGap, isGap', rfl⟩
    exact ⟨gap, _, isGap, ⟨_, ⟨gap', _, isGap', ⟨rfl, rfl⟩, rfl⟩, rfl⟩, by simp⟩

/-- Braces that are closed at once. -/
def IsBlock (xs : List Char) : Prop := ∃ body, '\x7d' ∉ body ∧ xs = '\x7b' :: (body ++ ['\x7d'])

theorem reads_block_iff (xs : List Char) (groups : List (Nat × List Char)) :
    block.Reads xs groups ↔ IsBlock xs ∧ groups = [] := by
  simp only [block, reads_all_iff, readsAll_literal_iff, readsAll_nil_iff,
    readsAll_cons_iff (.many _ _), reads_many_iff]
  constructor
  · rintro ⟨_, ⟨body, _, _, _, ⟨members, rfl⟩, ⟨_, ⟨rfl, rfl⟩, rfl⟩, rfl, rfl⟩, rfl⟩
    refine ⟨⟨body, fun member => ?_, rfl⟩, rfl⟩
    simpa [CharClass.has] using members _ member
  · rintro ⟨⟨body, free, rfl⟩, rfl⟩
    refine ⟨_, ⟨body, _, _, _, ⟨fun c member => ?_, rfl⟩, ⟨_, ⟨rfl, rfl⟩, rfl⟩, rfl, rfl⟩, rfl⟩
    have other : c ≠ '\x7d' := fun same => free (same ▸ member)
    simpa [CharClass.has] using other

theorem reads_namedFront_iff (xs : List Char) (groups : List (Nat × List Char)) :
    namedFront.Reads xs groups ↔ groups = [] ∧ ∃ gap names gap' gap'', IsGap gap ∧ IsBlock names ∧
      IsGap gap' ∧ IsGap gap'' ∧
      xs = "import".toList ++ (gap ++ (names ++ (gap' ++ ("from".toList ++ gap'')))) := by
  simp only [namedFront, reads_all_iff, readsAll_literal_iff "import", readsAll_from_iff,
    readsAll_space_iff (block :: _), readsAll_cons_iff block, reads_block_iff]
  constructor
  · rintro ⟨_, ⟨gap, _, isGap, ⟨names, _, _, _, ⟨isBlock, rfl⟩, ⟨rfl, gap', gap'', isGap', isGap'',
      rfl⟩, rfl, rfl⟩, rfl⟩, rfl⟩
    exact ⟨rfl, gap, names, gap', gap'', isGap, isBlock, isGap', isGap'', rfl⟩
  · rintro ⟨rfl, gap, names, gap', gap'', isGap, isBlock, isGap', isGap'', rfl⟩
    exact ⟨_, ⟨gap, _, isGap, ⟨names, _, _, _, ⟨isBlock, rfl⟩, ⟨rfl, gap', gap'', isGap', isGap'',
      rfl⟩, rfl, rfl⟩, rfl⟩, rfl⟩

/-- The names that may come with the default import, with the comma in front of them. -/
def IsNames (xs : List Char) : Prop :=
  ∃ gap names, (∀ c ∈ gap, Text.isBlank c = true) ∧ IsBlock names ∧ xs = ',' :: (gap ++ names)

theorem reads_names_iff (xs : List Char) (groups : List (Nat × List Char)) :
    (Pattern.all (literal ",") [gap, block]).Reads xs groups ↔ IsNames xs ∧ groups = [] := by
  simp only [reads_all_iff, readsAll_literal_iff, readsAll_nil_iff, readsAll_cons_iff gap,
    readsAll_cons_iff block, reads_block_iff]
  simp only [gap, reads_many_iff]
  constructor
  · rintro ⟨_, ⟨gap, _, _, _, ⟨blank, rfl⟩, ⟨names, _, _, _, ⟨isBlock, rfl⟩, ⟨rfl, rfl⟩, rfl,
      rfl⟩, rfl, rfl⟩, rfl⟩
    exact ⟨⟨gap, names, blank, isBlock, by simp⟩, rfl⟩
  · rintro ⟨⟨gap, names, blank, isBlock, rfl⟩, rfl⟩
    exact ⟨_, ⟨gap, _, _, _, ⟨blank, rfl⟩, ⟨names, _, _, _, ⟨isBlock, rfl⟩, ⟨rfl, rfl⟩, rfl,
      rfl⟩, rfl, rfl⟩, by simp⟩

theorem reads_reactFront_iff (xs : List Char) (groups : List (Nat × List Char)) :
    reactFront.Reads xs groups ↔ ∃ gap names gap' gap'', IsGap gap ∧ IsGap gap' ∧ IsGap gap'' ∧
      (IsNames names ∧ groups = [(1, names)] ∨ names = [] ∧ groups = []) ∧
      xs = "import".toList ++ (gap ++ ("React".toList ++ (names ++ (gap' ++
        ("from".toList ++ gap''))))) := by
  simp only [reactFront, reads_all_iff (literal "import"), readsAll_literal_iff "import",
    readsAll_literal_iff "React", readsAll_from_iff, readsAll_space_iff (literal "React" :: _),
    readsAll_cons_iff (.maybe _), reads_maybe_iff, reads_capture_iff, reads_names_iff]
  constructor
  · rintro ⟨_, ⟨gap, _, isGap, ⟨_, ⟨names, _, _, _, optional, ⟨rfl, gap', gap'', isGap', isGap'',
      rfl⟩, rfl, rfl⟩, rfl⟩, rfl⟩, rfl⟩
    refine ⟨gap, names, gap', gap'', isGap, isGap', isGap'', ?_, rfl⟩
    rcases optional with ⟨_, ⟨isNames, rfl⟩, rfl⟩ | ⟨rfl, rfl⟩
    · exact .inl ⟨isNames, rfl⟩
    · exact .inr ⟨rfl, rfl⟩
  · rintro ⟨gap, names, gap', gap'', isGap, isGap', isGap'', optional, rfl⟩
    refine ⟨_, ⟨gap, _, isGap, ⟨_, ⟨names, _, groups, _, ?_, ⟨rfl, gap', gap'', isGap', isGap'',
      rfl⟩, rfl, rfl⟩, rfl⟩, rfl⟩, rfl⟩
    rcases optional with ⟨isNames, rfl⟩ | ⟨rfl, rfl⟩
    · exact .inl ⟨_, ⟨isNames, rfl⟩, rfl⟩
    · exact .inr ⟨rfl, rfl⟩

theorem reads_domFront_iff (xs : List Char) (groups : List (Nat × List Char)) :
    domFront.Reads xs groups ↔ groups = [] ∧ ∃ gap gap' gap'', IsGap gap ∧ IsGap gap' ∧
      IsGap gap'' ∧
      xs = "import".toList ++ (gap ++ ("ReactDOM".toList ++ (gap' ++
        ("from".toList ++ gap'')))) := by
  simp only [domFront, reads_all_iff, readsAll_literal_iff "import", readsAll_from_iff,
    readsAll_space_iff (literal "ReactDOM" :: _), readsAll_literal_iff "ReactDOM"]
  constructor
  · rintro ⟨_, ⟨gap, _, isGap, ⟨_, ⟨rfl, gap', gap'', isGap', isGap'', rfl⟩, rfl⟩, rfl⟩, rfl⟩
    exact ⟨rfl, gap, gap', gap'', isGap, isGap', isGap'', rfl⟩
  · rintro ⟨rfl, gap, gap', gap'', isGap, isGap', isGap'', rfl⟩
    exact ⟨_, ⟨gap, _, isGap, ⟨_, ⟨rfl, gap', gap'', isGap', isGap'', rfl⟩, rfl⟩, rfl⟩, rfl⟩

/-- What may stand in a clause. -/
def isPlain (c : Char) : Bool := (CharClass.except ['\'', '"', ';', '\n']).has c

theorem reads_clauseFront_iff (xs : List Char) (groups : List (Nat × List Char)) :
    clauseFront.Reads xs groups ↔ ∃ gap clause gap' gap'', IsGap gap ∧ IsGap gap' ∧ IsGap gap'' ∧
      clause ≠ [] ∧ (∀ c ∈ clause, isPlain c = true) ∧ groups = [(1, clause)] ∧
      xs = "import".toList ++ (gap ++ (clause ++ (gap' ++ ("from".toList ++ gap'')))) := by
  simp only [clauseFront, reads_all_iff, readsAll_literal_iff "import", readsAll_from_iff,
    readsAll_space_iff (.capture 1 _ :: _), readsAll_cons_iff (.capture 1 _), reads_capture_iff,
    reads_oneOrMore_iff]
  constructor
  · rintro ⟨_, ⟨gap, _, isGap, ⟨clause, _, _, _, ⟨_, ⟨nonempty, members, rfl⟩, rfl⟩, ⟨rfl, gap',
      gap'', isGap', isGap'', rfl⟩, rfl, rfl⟩, rfl⟩, rfl⟩
    exact ⟨gap, clause, gap', gap'', isGap, isGap', isGap'', nonempty, members, rfl, rfl⟩
  · rintro ⟨gap, clause, gap', gap'', isGap, isGap', isGap'', nonempty, members, rfl, rfl⟩
    exact ⟨_, ⟨gap, _, isGap, ⟨clause, _, _, _, ⟨_, ⟨nonempty, members, rfl⟩, rfl⟩, ⟨rfl, gap',
      gap'', isGap', isGap'', rfl⟩, rfl, rfl⟩, rfl⟩, rfl⟩

theorem reads_effectFront_iff (xs : List Char) (groups : List (Nat × List Char)) :
    effectFront.Reads xs groups ↔ groups = [] ∧ ∃ gap, IsGap gap ∧ xs = "import".toList ++ gap := by
  simp only [effectFront, reads_all_iff, readsAll_literal_iff, readsAll_space_iff, readsAll_nil_iff]
  constructor
  · rintro ⟨_, ⟨gap, _, isGap, ⟨rfl, rfl⟩, rfl⟩, rfl⟩
    exact ⟨rfl, gap, isGap, by simp⟩
  · rintro ⟨rfl, gap, isGap, rfl⟩
    exact ⟨_, ⟨gap, _, isGap, ⟨rfl, rfl⟩, rfl⟩, by simp⟩

theorem reads_domPackage_iff (xs : List Char) : (∃ groups, domPackage.Reads xs groups) ↔
    xs = "react-dom".toList ∨ xs = "react-dom/client".toList := by
  simp only [domPackage, reads_all_iff, readsAll_literal_iff "react-dom",
    readsAll_cons_iff (.maybe _), readsAll_nil_iff, reads_maybe_iff, reads_capture_iff,
    reads_literal_iff]
  constructor
  · rintro ⟨_, _, ⟨_, _, _, _, ⟨_, ⟨rfl, rfl⟩, rfl⟩ | ⟨rfl, rfl⟩, ⟨rfl, rfl⟩, rfl, rfl⟩, rfl⟩
    · exact .inr rfl
    · exact .inl rfl
  · rintro (rfl | rfl)
    · exact ⟨_, _, ⟨_, _, _, _, .inr ⟨rfl, rfl⟩, ⟨rfl, rfl⟩, rfl, rfl⟩, rfl⟩
    · exact ⟨_, _, ⟨_, _, _, _, .inl ⟨_, ⟨rfl, rfl⟩, rfl⟩, ⟨rfl, rfl⟩, rfl, rfl⟩, rfl⟩

theorem not_reads_react {specifier : List Char} (other : specifier ≠ "react".toList)
    (groups : List (Nat × List Char)) : ¬(literal "react").Reads specifier groups := by
  rw [reads_literal_iff]
  exact fun same => other same.1

theorem not_reads_domPackage {specifier : List Char} (dom : specifier ≠ "react-dom".toList)
    (client : specifier ≠ "react-dom/client".toList) (groups : List (Nat × List Char)) :
    ¬domPackage.Reads specifier groups := fun reads =>
  ((reads_domPackage_iff _).mp ⟨groups, reads⟩).elim dom client

/-- No specifier of a file is one of the view library. -/
theorem not_reads_packages {specifier : List Char} (isFile : specifier.head? = some '.')
    (groups : List (Nat × List Char)) :
    ¬(literal "react").Reads specifier groups ∧ ¬domPackage.Reads specifier groups := by
  have other (package : String) (begins : package.toList.head? ≠ some '.') :
      specifier ≠ package.toList := fun same => begins (same ▸ isFile)
  exact ⟨not_reads_react (other _ (by simp)) groups,
    not_reads_domPackage (other _ (by simp)) (other _ (by simp)) groups⟩

theorem reads_relativeSpecifier_iff (xs : List Char) (groups : List (Nat × List Char)) :
    relativeSpecifier.Reads xs groups ↔ groups = [] ∧ ∃ rest, rest ≠ [] ∧ IsUnquoted rest ∧
      (xs = "./".toList ++ rest ∨ xs = "../".toList ++ rest) := by
  simp only [relativeSpecifier, perhaps, reads_all_iff, readsAll_literal_iff ".",
    readsAll_literal_iff "/", readsAll_cons_iff (.maybe _), readsAll_cons_iff (oneOrMore _ _),
    readsAll_nil_iff, reads_maybe_iff, reads_literal_iff, reads_oneOrMore_iff]
  have plain (rest : List Char) :
      (∀ c ∈ rest, (CharClass.except ['\'', '"']).has c = true) ↔ IsUnquoted rest := by
    simp [CharClass.has, IsUnquoted, IsQuote]
  constructor
  · rintro ⟨_, ⟨_, _, _, _, dot, ⟨_, ⟨rest, _, _, _, ⟨nonempty, members, rfl⟩, ⟨rfl, rfl⟩, rfl,
      rfl⟩, rfl⟩, rfl, rfl⟩, rfl⟩
    refine ⟨?_, rest, nonempty, (plain rest).mp members, ?_⟩
    · rcases dot with ⟨-, rfl⟩ | ⟨-, rfl⟩ <;> rfl
    · rcases dot with ⟨rfl, -⟩ | ⟨rfl, -⟩
      · exact .inr (by simp)
      · exact .inl (by simp)
  · rintro ⟨rfl, rest, nonempty, unquoted, rfl | rfl⟩
    · exact ⟨_, ⟨[], _, _, _, .inr ⟨rfl, rfl⟩, ⟨_, ⟨rest, _, _, _, ⟨nonempty,
        (plain rest).mpr unquoted, rfl⟩, ⟨rfl, rfl⟩, rfl, rfl⟩, rfl⟩, rfl, rfl⟩, by simp⟩
    · exact ⟨_, ⟨_, _, _, _, .inl ⟨rfl, rfl⟩, ⟨_, ⟨rest, _, _, _, ⟨nonempty,
        (plain rest).mpr unquoted, rfl⟩, ⟨rfl, rfl⟩, rfl, rfl⟩, rfl⟩, rfl, rfl⟩, by simp⟩

/-- The specifier of a file is remembered as it stands, and begins with a dot. -/
theorem reads_capture_relativeSpecifier {number : Nat} {xs : List Char}
    {groups : List (Nat × List Char)}
    (reads : (Pattern.capture number relativeSpecifier).Reads xs groups) :
    groups = [(number, xs)] ∧ xs.head? = some '.' := by
  obtain ⟨inner, own, rfl⟩ := (reads_capture_iff number).mp reads
  obtain ⟨rfl, rest, -, -, rfl | rfl⟩ := (reads_relativeSpecifier_iff _ _).mp own
  · exact ⟨rfl, rfl⟩
  · exact ⟨rfl, rfl⟩

theorem heeds_of_quoteless {front : Pattern}
    (quoteless : canRead '\'' front = false ∧ canRead '"' front = false) : Heeds front :=
  fun _ _ _ _ _ _ _ _ _ reads _ => isUnquoted_of_reads quoteless reads

theorem IsUnquoted.block {body : List Char} (inside : IsUnquoted body) :
    IsUnquoted ('\x7b' :: (body ++ ['\x7d'])) :=
  have brace : IsUnquoted ['\x7b'] := by decide
  brace.append (inside.append (by decide))

theorem IsUnquoted.words {gap gap' : List Char} (isGap : IsGap gap) (isGap' : IsGap gap') :
    IsUnquoted (gap ++ ("from".toList ++ gap')) :=
  isGap.plain.append (.append (by decide) isGap'.plain)

theorem heeds_named : Heeds namedFront := by
  intro head closed plain ys groups q rest rest' mark reads same
  obtain ⟨-, gap, _, gap', gap'', isGap, ⟨body, free, rfl⟩, isGap', isGap'', rfl⟩ :=
    (reads_namedFront_iff _ _).mp reads
  have before : IsUnquoted ("import".toList ++ gap) := .append (by decide) isGap.plain
  have cut : head ++ q :: rest = "import".toList ++ gap ++ '\x7b' :: (body ++ '\x7d' ::
      (gap' ++ ("from".toList ++ (gap'' ++ rest')))) := by rw [same]; simp
  have inside := isUnquoted_of_block closed plain before free mark cut
  rw [← List.append_assoc]
  exact before.append (inside.block.append (.words isGap' isGap''))

theorem heeds_react : Heeds reactFront := by
  intro head closed plain ys groups q rest rest' mark reads same
  obtain ⟨gap, names, gap', gap'', isGap, isGap', isGap'', optional, rfl⟩ :=
    (reads_reactFront_iff _ _).mp reads
  have before : IsUnquoted ("import".toList ++ gap ++ "React".toList) :=
    .append (.append (by decide) isGap.plain) (by decide)
  suffices inside : IsUnquoted names by
    simpa using before.append (inside.append (.words isGap' isGap''))
  rcases optional with ⟨⟨between, _, blank, ⟨body, free, rfl⟩, rfl⟩, -⟩ | ⟨rfl, -⟩
  · have mark' : IsUnquoted [','] := by decide
    have comma : IsUnquoted (',' :: between) := mark'.append (.of_blank blank)
    have cut : head ++ q :: rest = "import".toList ++ gap ++ "React".toList ++ ',' :: between ++
        '\x7b' :: (body ++ '\x7d' :: (gap' ++ ("from".toList ++ (gap'' ++ rest')))) := by
      rw [same]; simp
    have inside := isUnquoted_of_block closed plain (before.append comma) free mark cut
    exact comma.append inside.block
  · decide

/-- Where only names are imported, and without braces of their own, the default import is not
read. -/
theorem not_reads_react_of_named {head back : List Char} {groups groups' : List (Nat × List Char)}
    (named : namedFront.Reads head groups) (flat : head.count '\x7b' ≤ 1) (ends : back <:+ head) :
    ¬reactFront.Reads back groups' := by
  intro reads
  obtain ⟨-, gap₀, _, gap₁, gap₂, isGap₀, ⟨body₀, -, rfl⟩, isGap₁, isGap₂, rfl⟩ :=
    (reads_namedFront_iff _ _).mp named
  obtain ⟨gap, list, gap', gap'', isGap, isGap', isGap'', optional, rfl⟩ :=
    (reads_reactFront_iff _ _).mp reads
  have solid {gap : List Char} (isGap : IsGap gap) {c : Char} (other : Text.isBlank c = false) :
      c ∉ gap := fun listed => by simp [isGap.2 c listed] at other
  rcases optional with ⟨⟨between, _, blank, ⟨body, free, rfl⟩, rfl⟩, -⟩ | ⟨rfl, -⟩
  · -- the comma would stand before the brace
    obtain ⟨front, same⟩ := ends
    have cut : ("import".toList ++ gap₀) ++ '\x7b' :: (body₀ ++ '\x7d' :: (gap₁ ++
        ("from".toList ++ gap₂))) = (front ++ ("import".toList ++ (gap ++ ("React".toList ++
          ',' :: between)))) ++
        '\x7b' :: (body ++ '\x7d' :: (gap' ++ ("from".toList ++ gap''))) := by
      simpa using same.symm
    simp only [List.cons_append, List.count_append, List.count_cons_self] at flat
    have ahead : '\x7b' ∉ "import".toList ++ gap₀ := by
      rw [← List.count_eq_zero, List.count_append]
      omega
    have behind : '\x7b' ∉ body₀ ++ '\x7d' :: (gap₁ ++ ("from".toList ++ gap₂)) := by
      rw [← List.count_eq_zero]
      simp only [List.count_append, List.count_cons] at flat ⊢
      simp at flat ⊢
      omega
    have first := ((List.append_cons_inj_of_notMem ahead behind).mp cut).1
    have comma : ',' ∈ "import".toList ++ gap₀ := first ▸ by simp
    rcases List.mem_append.mp comma with stray | stray
    · exact absurd stray (by decide)
    · exact solid isGap₀ (by decide) stray
  · -- the default import would stand behind the last brace
    have cut : "import".toList ++ (gap₀ ++ ('\x7b' :: (body₀ ++ ['\x7d']) ++ (gap₁ ++
        ("from".toList ++ gap₂)))) = ("import".toList ++ gap₀ ++ '\x7b' :: body₀) ++
          '\x7d' :: (gap₁ ++ ("from".toList ++ gap₂)) := by simp
    rw [cut] at ends
    have brace {gap : List Char} (isGap : IsGap gap) : '\x7d' ∉ gap := solid isGap (by decide)
    have behind := suffix_of_notMem ends (by simp [brace isGap, brace isGap', brace isGap''])
    have inside : 'R' ∈ gap₁ ++ ("from".toList ++ gap₂) := by
      apply behind.subset
      simp
    simp [solid isGap₁ (c := 'R') (by decide), solid isGap₂ (c := 'R') (by decide)] at inside

/-- No clause is read where nothing is named. -/
theorem not_reads_clause_of_reads_effect {head back : List Char}
    {groups groups' : List (Nat × List Char)} (effect : effectFront.Reads head groups)
    (ends : back <:+ head) : ¬clauseFront.Reads back groups' := by
  intro reads
  obtain ⟨-, gap, isGap, rfl⟩ := (reads_effectFront_iff _ _).mp effect
  obtain ⟨_, _, _, _, -, -, -, -, -, -, rfl⟩ := (reads_clauseFront_iff _ _).mp reads
  have inside : 'f' ∈ "import".toList ++ gap := by
    apply ends.subset
    simp
  rcases List.mem_append.mp inside with stray | stray
  · exact absurd stray (by decide)
  · exact absurd (isGap.2 _ stray) (by decide)

/-- Every front begins with the keyword and a blank. -/
theorem isBlank_of_opens (rest : List Pattern) (ys : List Char) (groups : List (Nat × List Char))
    (reads : (Pattern.all (literal "import") (space :: rest)).Reads ys groups) :
    ∃ c more, ys = "import".toList ++ c :: more ∧ Text.isBlank c = true := by
  rw [reads_all_iff, readsAll_literal_iff] at reads
  obtain ⟨_, later, rfl⟩ := reads
  obtain ⟨gap, more, ⟨nonempty, blank⟩, -, rfl⟩ := (readsAll_space_iff _ _ _).mp later
  obtain ⟨c, gap, rfl⟩ := List.exists_cons_of_ne_nil nonempty
  exact ⟨c, gap ++ more, rfl, blank c List.mem_cons_self⟩

theorem isImportRule_react : IsImportRule reactRule reactFront (literal "react") where
  same := outcomes_quotedPackage reactFront _
  opens := isBlank_of_opens _
  heeds := heeds_react
  plain _ _ := isUnquoted_of_reads (by decide)
  edgeless := by decide

theorem isImportRule_named : IsImportRule namedRule namedFront (literal "react") where
  same := outcomes_quotedPackage namedFront _
  opens := isBlank_of_opens _
  heeds := heeds_named
  plain _ _ := isUnquoted_of_reads (by decide)
  edgeless := by decide

theorem isImportRule_dom : IsImportRule domRule domFront domPackage where
  same := outcomes_quotedPackage domFront _
  opens := isBlank_of_opens _
  heeds := heeds_of_quoteless (by decide)
  plain _ _ := isUnquoted_of_reads (by decide)
  edgeless := by decide

theorem isImportRule_relative :
    IsImportRule relativeRule clauseFront (.capture 2 relativeSpecifier) where
  same := rfl
  opens := isBlank_of_opens _
  heeds := heeds_of_quoteless (by decide)
  plain _ _ := isUnquoted_of_reads (by decide)
  edgeless := by decide

theorem isImportRule_effect :
    IsImportRule effectRule effectFront (.capture 1 relativeSpecifier) where
  same := rfl
  opens := isBlank_of_opens _
  heeds := heeds_of_quoteless (by decide)
  plain _ _ := isUnquoted_of_reads (by decide)
  edgeless := by decide

/-- The rule for imports that name nothing does not fit where the keyword, blanks and a quote do not
come next. -/
theorem failsAt_effect_of_ne {before after : List Char} (ne : ∀ gap q more, IsGap gap →
    IsQuote q → after ≠ "import".toList ++ (gap ++ q :: more)) :
    effectRule.pattern.FailsAt ⟨before, after⟩ := by
  refine failsAt_of_outcomes isImportRule_effect.same ?_
  refine failsAt_of_reads fun xs _ rest reads same => ?_
  obtain ⟨_, _, _, _, quoted, -, rfl, -⟩ := reads_seq_iff.mp reads
  obtain ⟨_, _, q, _, _, _, opening, -, mark, -, rfl, -⟩ := (reads_quoting_iff _ _ _ _).mp quoted
  obtain ⟨-, gap, isGap, rfl⟩ := (reads_effectFront_iff _ _).mp opening
  exact ne gap q _ isGap mark (by simpa using same)

theorem isImportRule_of_mem {rule : RewriteRule} (listed : rule ∈ importRules) :
    ∃ front core, IsImportRule rule front core := by
  rw [importRules_eq] at listed
  simp only [List.mem_cons, List.not_mem_nil, or_false] at listed
  rcases listed with rfl | rfl | rfl | rfl | rfl
  · exact ⟨_, _, isImportRule_react⟩
  · exact ⟨_, _, isImportRule_named⟩
  · exact ⟨_, _, isImportRule_dom⟩
  · exact ⟨_, _, isImportRule_relative⟩
  · exact ⟨_, _, isImportRule_effect⟩

end Workbench.Script
