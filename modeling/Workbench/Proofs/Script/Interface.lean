import Workbench.Proofs.Pattern.Taking
import Workbench.Proofs.Script.Types

/-!
# Declarations of interfaces

The rule for interfaces reads a name of word characters and looks for the brace behind it. So a
declaration is taken out of a text exactly if it has such a name and neither parameters nor bases.
Of any other declaration the keywords are left, since no rule begins within them.
-/
namespace Workbench.Script

open Pattern

/-! ### Words that the rules begin with -/

theorem exists_opening {word : String} {words : List String} (listed : word ∈ words)
    {gap : List Char} (isGap : IsGap gap) (rest : List Char) : ∃ w ∈ words, ∃ c more,
      word.toList ++ (gap ++ rest) = w.toList ++ c :: more ∧ Text.isBlank c = true := by
  obtain ⟨c, gap, rfl⟩ := List.exists_cons_of_ne_nil isGap.1
  exact ⟨word, listed, c, gap ++ rest, rfl, isGap.2 c List.mem_cons_self⟩

theorem opensWith_interface : interfaceRule.pattern.OpensWith ["export", "interface"] where
  edge := by decide
  solid := by decide
  opens xs groups reads := by
    obtain ⟨front, gap, word, gap', more, rfl | ⟨gap'', isGap', rfl⟩, isGap, -, -, rfl⟩ :=
      exists_of_reads_interface reads
    · exact exists_opening (by simp) isGap _
    · rw [List.append_assoc]
      exact exists_opening (by simp) isGap' _

theorem opensWith_alias : aliasRule.pattern.OpensWith ["export", "type"] where
  edge := by decide
  solid := by decide
  opens xs groups reads := by
    obtain ⟨front, gap, word, gap', gap'', more, rfl | ⟨gap₀, isGap', rfl⟩, isGap, -, -, -, rfl⟩ :=
      exists_of_reads_alias reads
    · exact exists_opening (by simp) isGap _
    · rw [List.append_assoc]
      exact exists_opening (by simp) isGap' _

theorem opensWith_cast : castRule.pattern.OpensWith ["as"] where
  edge := by decide
  solid := by decide
  opens xs groups reads := by
    obtain ⟨gap, word, isGap, -, rfl⟩ := exists_of_reads_cast reads
    exact exists_opening (by simp) isGap _

/-- A keyword with blanks behind it is kept if the rule does not fit at the keyword. None of the
other words with which the rule begins is an end of the keyword. -/
theorem keeps_keyword {rule : RewriteRule} {words : List String}
    (opens : rule.pattern.OpensWith words) {word : String}
    (letters : ∀ c ∈ word.toList, Text.isWord c = true)
    (ends : ∀ w ∈ words, w.toList <:+ word.toList → w = word) {gap rest : List Char}
    (isGap : IsGap gap)
    (fails : ∀ before, rule.pattern.FailsAt ⟨before, word.toList ++ (gap ++ rest)⟩) :
    rule.Keeps (word.toList ++ gap) rest := by
  refine RewriteRule.keeps_of_fails fun back within solid before turns fit fits => ?_
  obtain ⟨-, w, listed, c, more, same, blank⟩ := opens.exists_word fits
  obtain ⟨nonempty, letters'⟩ := opens.solid w listed
  rcases suffix_append_cases within with within | ⟨left, -, tail, rfl⟩
  · -- no word begins with a blank
    obtain ⟨b, back, rfl⟩ := List.exists_cons_of_ne_nil solid
    obtain ⟨a, letters, chars⟩ :=
      List.exists_cons_of_ne_nil (l := w.toList) (by simpa using nonempty)
    rw [chars] at same
    have letter := letters' a (by simp [chars])
    have blank' := isGap.2 b (within.subset List.mem_cons_self)
    rw [← (List.cons.inj same).1, Text.isWord_of_isBlank blank'] at letter
    cases letter
  · -- both words go on up to a blank, so that the one found is an end of the keyword
    obtain ⟨d, gap, rfl⟩ := List.exists_cons_of_ne_nil isGap.1
    rw [List.append_assoc] at same fits
    have behind := Text.isWord_of_isBlank (isGap.2 d List.mem_cons_self)
    have inside : ∀ a ∈ left, Text.isWord a = true := fun a member =>
      letters a (tail.subset member)
    have whole := (spans_unique inside letters' (by simpa using behind)
      (by simpa using Text.isWord_of_isBlank blank) same).1
    subst whole
    obtain rfl := ends w listed tail
    exact fails before turns fit fits

/-- A text in which no rule for types begins. -/
structure IsUntyped (text : String) : Prop where
  markless : ∀ c ∈ [':', '<', '>'], c ∉ text.toList
  wordless : ∀ w ∈ ["export", "interface", "type", "as"], ¬HasWord w.toList text.toList

/-- A text in which no rule for types begins is kept, if no word goes on behind it. -/
theorem IsUntyped.keeps {text : String} (untyped : IsUntyped text) {rest : List Char}
    (ends : rest = [] ∨ ∀ c ∈ text.toList.getLast?, Text.isWord c = false) :
    ∀ rule ∈ typeRules, rule.Keeps text.toList rest := by
  have worded {rule : RewriteRule} {words : List String} (opens : rule.pattern.OpensWith words)
      (listed : words ⊆ ["export", "interface", "type", "as"]) : rule.Keeps text.toList rest :=
    RewriteRule.keeps_of_wordless opens (fun w word => untyped.wordless w (listed word)) ends
  rw [typeRules_eq]
  intro rule listed
  simp only [List.mem_cons, List.not_mem_nil, or_false] at listed
  rcases listed with rfl | rfl | rfl | rfl | rfl
  · exact worded opensWith_interface (by simp)
  · exact worded opensWith_alias (by simp)
  · exact keeps_of_notMem (fun _ _ => head?_of_reads_annotation)
      (untyped.markless ':' (by simp)) rest
  · exact worded opensWith_cast (by simp)
  · exact keeps_of_notMem (fun _ _ => head?_of_reads_call) (untyped.markless '<' (by simp)) rest

/-! ### Declarations -/

/-- White space, and not none. -/
structure Space extends Gap where
  nonempty : text ≠ ""

theorem Space.isGap (space : Space) : IsGap space.text.toList :=
  ⟨by simpa using space.nonempty, space.blank⟩

theorem Space.takes (space : Space) {rest : List Char}
    (stops : ∀ c ∈ rest.head?, Text.isBlank c = false) (before : List Char) :
    Script.space.Takes before space.text.toList rest := by
  have members : ∀ c ∈ space.text.toList, CharClass.blank.has c = true := space.blank
  exact .oneOrMore space.isGap.1 members stops

/-- What may stand between the name of an interface and its body. -/
inductive Heritage where
  | none
  | parameters (before : Gap) (list : String)
  | bases (before behind : Space) (names : List (Gap × Identifier × Gap)) (nonempty : names ≠ [])

def Heritage.text : Heritage → String
  | none => ""
  | parameters before list => before.text ++ "<" ++ list ++ ">"
  | bases before behind names _ => before.text ++ "extends" ++ behind.text ++ listing names

structure Interface where
  /-- The white space behind the first keyword, if the interface is exported. -/
  exported : Option Space
  opening : Space
  name : Identifier
  heritage : Heritage
  before : Gap
  body : String
  braceless : ∀ c ∈ body.toList, c ∉ ['\x7b', '\x7d']

namespace Interface

variable (i : Interface)

def front : String :=
  match i.exported with
  | none => ""
  | some space => "export" ++ space.text

def keywords : String := i.front ++ "interface" ++ i.opening.text

/-- What stands behind the name. -/
def behind : String := i.heritage.text ++ i.before.text ++ "\x7b" ++ i.body ++ "\x7d"

def text : String := i.keywords ++ i.name.text ++ i.behind

/-- A name of word characters, and nothing between it and the body. -/
structure IsBare : Prop where
  heritage : i.heritage = .none
  name : ∀ c ∈ i.name.text.toList, Text.isWord c = true

/-- Behind a name comes no more of it. -/
theorem head?_behind (after : List Char) :
    ∀ c ∈ (i.behind.toList ++ after).head?, Text.isWord c = false := by
  have gapped (gap : Gap) {d : Char} (solid : Text.isWord d = false) (rest : List Char) :
      ∀ c ∈ (gap.text.toList ++ d :: rest).head?, Text.isWord c = false := by
    intro c first
    cases chars : gap.text.toList with
    | nil => simp_all
    | cons a gap' =>
      obtain rfl : a = c := by simpa [chars] using first
      exact Text.isWord_of_isBlank (gap.blank a (by simp [chars]))
  cases known : i.heritage with
  | none =>
    have whole : i.behind.toList ++ after =
        i.before.text.toList ++ '\x7b' :: (i.body.toList ++ '\x7d' :: after) := by
      simp [behind, known, Heritage.text]
    rw [whole]
    exact gapped i.before (by decide) _
  | parameters before list =>
    have whole : i.behind.toList ++ after = before.text.toList ++ '<' :: (list ++ ">" ++
        i.before.text ++ "\x7b" ++ i.body ++ "\x7d").toList ++ after := by
      simp [behind, known, Heritage.text]
    rw [whole, List.append_assoc]
    exact gapped before (by decide) _
  | bases before behind names nonempty =>
    obtain ⟨a, gap, chars⟩ := List.exists_cons_of_ne_nil before.isGap.1
    intro c first
    obtain rfl : a = c := by simpa [Interface.behind, known, Heritage.text, chars] using first
    exact Text.isWord_of_isBlank (before.blank a (by simp [chars]))

/-- The brace comes next behind a name with neither parameters nor bases. -/
theorem heritage_of_brace {gap more after : List Char} (blank : ∀ c ∈ gap, Text.isBlank c = true)
    (same : i.behind.toList ++ after = gap ++ '\x7b' :: more) : i.heritage = .none := by
  have apart {d : Char} (gap' : Gap) (solid : Text.isBlank d = false) (other : d ≠ '\x7b')
      (rest : List Char) : gap'.text.toList ++ d :: rest ≠ gap ++ '\x7b' :: more := by
    intro same
    have brace := (spans_unique gap'.blank blank (by simpa using solid) (by simp; decide) same).2
    exact other (List.cons.inj brace).1
  cases known : i.heritage with
  | none => rfl
  | parameters before list =>
    have whole : i.behind.toList ++ after = before.text.toList ++ '<' :: ((list ++ ">" ++
        i.before.text ++ "\x7b" ++ i.body ++ "\x7d").toList ++ after) := by
      simp [behind, known, Heritage.text]
    exact absurd (whole.symm.trans same) (apart before (by decide) (by decide) _)
  | bases before behind names nonempty =>
    have whole : i.behind.toList ++ after = before.text.toList ++ 'e' :: (("xtends" ++
        behind.text ++ listing names ++ i.before.text ++ "\x7b" ++ i.body ++ "\x7d").toList ++
          after) := by
      simp [Interface.behind, known, Heritage.text]
    exact absurd (whole.symm.trans same) (apart before.toGap (by decide) (by decide) _)

/-- What the rule for interfaces asks for behind the keyword. -/
theorem isBare_of_reads {after gap word gap' more : List Char} (isGap : IsGap gap)
    (isName : IsName word) (blank : ∀ c ∈ gap', Text.isBlank c = true)
    (same : i.opening.text.toList ++ (i.name.text.toList ++ (i.behind.toList ++ after)) =
      gap ++ (word ++ (gap' ++ '\x7b' :: more))) : i.IsBare := by
  obtain ⟨a, rest, chars, letter⟩ := i.name.exists_first
  obtain ⟨b, letters, rfl⟩ := List.exists_cons_of_ne_nil isName.1
  have first : ∀ c ∈ (i.name.text.toList ++ (i.behind.toList ++ after)).head?,
      Text.isBlank c = false := by simpa [chars] using ((isNameChar_iff a).mp letter).1
  have first' : ∀ c ∈ (b :: letters ++ (gap' ++ '\x7b' :: more)).head?, Text.isBlank c = false := by
    simpa using Text.isBlank_of_isWord (isName.2 b List.mem_cons_self)
  have words := (spans_unique i.opening.blank isGap.2 first first' same).2
  rcases List.append_eq_append_iff.mp words with ⟨between, word, here⟩ | ⟨between, word, here⟩
  · -- the word would go on behind the name
    have empty : between = [] := by
      rcases between with _ | ⟨d, between⟩
      · rfl
      · have outside := i.head?_behind after d (by simp [here])
        rw [isName.2 d (by simp [word])] at outside
        cases outside
    subst empty
    rw [List.append_nil] at word
    exact ⟨i.heritage_of_brace blank (by simpa using here), fun c listed =>
      isName.2 c (by rwa [word])⟩
  · -- the name goes on with neither a blank nor a brace
    rcases between with _ | ⟨d, between⟩
    · rw [List.append_nil] at word
      exact ⟨i.heritage_of_brace blank (by simpa using here.symm), fun c listed =>
        isName.2 c (by rwa [← word])⟩
    · have letter := (isNameChar_iff d).mp (i.name.plain d (by simp [word]))
      rcases gap' with _ | ⟨e, gap'⟩
      · obtain rfl := (List.cons.inj here).1
        exact absurd letter.2 (by decide)
      · obtain rfl := (List.cons.inj here).1
        simp [blank] at letter

/-! ### The keywords -/

/-- Keywords are kept by a rule that fits neither at the second of them nor at the first. -/
theorem keeps_keywords {rule : RewriteRule} {words : List String}
    (opens : rule.pattern.OpensWith words)
    (ends : ∀ w ∈ words, ∀ word ∈ ["export", "interface"], w.toList <:+ word.toList → w = word)
    {rest : List Char} (fails : ∀ front, IsExport front → ∀ before, rule.pattern.FailsAt
      ⟨before, front ++ ("interface".toList ++ (i.opening.text.toList ++ rest))⟩) :
    rule.Keeps i.keywords.toList rest := by
  have second : rule.Keeps ("interface".toList ++ i.opening.text.toList) rest :=
    keeps_keyword opens (by decide) (fun w listed => ends w listed _ (by simp)) i.opening.isGap
      (fails [] (.inl rfl))
  unfold keywords front
  cases i.exported with
  | none => simpa using second
  | some space =>
    have first : rule.Keeps ("export".toList ++ space.text.toList)
        ("interface".toList ++ i.opening.text.toList ++ rest) := by
      refine keeps_keyword opens (by decide) (fun w listed => ends w listed _ (by simp))
        space.isGap fun before => ?_
      have unfit := fails _ (.inr ⟨_, space.isGap, rfl⟩) before
      rwa [List.append_assoc, ← List.append_assoc "interface".toList] at unfit
    have whole := first.append second
    simpa [List.append_assoc] using whole

theorem failsAt_interface (bad : ¬i.IsBare) {after : List Char} {front : List Char}
    (isExport : IsExport front) (before : List Char) : interfaceRule.pattern.FailsAt
      ⟨before, front ++ ("interface".toList ++ (i.opening.text.toList ++
        (i.name.text.toList ++ (i.behind.toList ++ after))))⟩ := by
  refine failsAt_of_reads fun xs groups rest reads same => ?_
  obtain ⟨front', gap, word, gap', more, isExport', isGap, isName, blank, rfl⟩ :=
    exists_of_reads_interface reads
  rw [List.append_assoc] at same
  have words := isExport.unique isExport' (by decide) (by decide) same
  exact bad (i.isBare_of_reads isGap isName blank (by simpa using words))

theorem failsAt_alias {front : List Char} (isExport : IsExport front) (before rest : List Char) :
    aliasRule.pattern.FailsAt ⟨before, front ++ ("interface".toList ++ rest)⟩ := by
  refine failsAt_of_reads fun xs groups rest' reads same => ?_
  obtain ⟨front', gap, word, gap', gap'', more, isExport', -, -, -, -, rfl⟩ :=
    exists_of_reads_alias reads
  rw [List.append_assoc] at same
  have words := isExport.unique isExport' (by decide) (by decide) same
  exact absurd (List.cons.inj words).1 (by decide)

theorem failsAt_cast {front : List Char} (isExport : IsExport front) (before rest : List Char) :
    castRule.pattern.FailsAt ⟨before, front ++ ("interface".toList ++ rest)⟩ := by
  refine failsAt_of_reads fun xs groups rest' reads same => ?_
  obtain ⟨gap, word, -, -, rfl⟩ := exists_of_reads_cast reads
  rcases isExport with rfl | ⟨gap', -, rfl⟩ <;> exact absurd (List.cons.inj same).1 (by decide)

theorem mem_keywords {c : Char} (listed : c ∈ i.keywords.toList) :
    Text.isWord c = true ∨ Text.isBlank c = true := by
  have letters : ∀ word ∈ ["export", "interface"], ∀ c ∈ word.toList, Text.isWord c = true := by
    decide
  unfold keywords front at listed
  simp only [String.toList_append, List.mem_append] at listed
  rcases listed with (first | word) | blank
  · split at first
    · cases first
    next space _ =>
      rw [String.toList_append, List.mem_append] at first
      rcases first with word | blank
      · exact .inl (letters _ (by simp) c word)
      · exact .inr (space.blank c blank)
  · exact .inl (letters _ (by simp) c word)
  · exact .inr (i.opening.blank c blank)

/-- Only the rule for interfaces may fit at the keywords. -/
theorem keeps_keywords_later : ∀ rule ∈ [aliasRule, annotationRule, castRule, callRule],
    ∀ rest, rule.Keeps i.keywords.toList rest := by
  have marked {c : Char} (solid : Text.isWord c = false ∧ Text.isBlank c = false) :
      c ∉ i.keywords.toList := fun listed => by
    rcases i.mem_keywords listed with letter | blank <;> simp_all
  intro rule listed rest
  simp only [List.mem_cons, List.not_mem_nil, or_false] at listed
  rcases listed with rfl | rfl | rfl | rfl
  · exact i.keeps_keywords opensWith_alias (by decide) fun _ isExport before =>
      failsAt_alias isExport before _
  · exact keeps_of_notMem (fun _ _ => head?_of_reads_annotation) (marked (by decide)) rest
  · exact i.keeps_keywords opensWith_cast (by decide) fun _ isExport before =>
      failsAt_cast isExport before _
  · exact keeps_of_notMem (fun _ _ => head?_of_reads_call) (marked (by decide)) rest

/-- What each of some rules keeps, whatever comes behind it, all of them keep. -/
theorem applyAll_keeps {rules : List RewriteRule} {xs : List Char}
    (keeps : ∀ rule ∈ rules, ∀ rest, rule.Keeps xs rest) (rest : List Char) :
    xs <+: applyAll rules (xs ++ rest) := by
  induction rules generalizing rest with
  | nil => exact List.prefix_append xs rest
  | cons rule rules ih =>
    rw [List.forall_mem_cons] at keeps
    rw [applyAll, List.foldl_cons, RewriteRule.apply, keeps.1 rest []]
    exact ih keeps.2 _

/-- The keywords of a declaration are left if it is not bare. -/
theorem keywords_prefix (bad : ¬i.IsBare) {before : String} (untyped : IsUntyped before)
    (ends : ∀ c ∈ before.toList.getLast?, Text.isWord c = false) (after : List Char) :
    before.toList ++ i.keywords.toList <+: applyAll typeRules
      (before.toList ++ i.keywords.toList ++
        (i.name.text.toList ++ (i.behind.toList ++ after))) := by
  have first : interfaceRule.Keeps i.keywords.toList
      (i.name.text.toList ++ (i.behind.toList ++ after)) :=
    i.keeps_keywords opensWith_interface (by decide) fun _ isExport before =>
      i.failsAt_interface bad isExport before
  have keeps := (untyped.keeps (.inr ends) interfaceRule (by simp [typeRules_eq])).append first
  rw [typeRules_eq, applyAll, List.foldl_cons, RewriteRule.apply, keeps []]
  -- what the first rule makes of the rest does not matter to the others
  refine applyAll_keeps (fun rule listed rest => ?_) _
  have typed : rule ∈ typeRules := List.mem_cons_of_mem interfaceRule listed
  exact (untyped.keeps (.inr ends) rule typed).append (i.keeps_keywords_later rule listed rest)

/-- The first of the keywords stands on its own. -/
theorem exists_hasWord {text : List Char} (begins : i.keywords.toList <+: text) :
    ∃ w ∈ ["export", "interface"], HasWord w.toList text := by
  have alone (word : String) (space : Space) (rest : List Char) :
      HasWord word.toList (word.toList ++ (space.text.toList ++ rest)) := by
    obtain ⟨c, gap, chars⟩ := List.exists_cons_of_ne_nil space.isGap.1
    refine ⟨[], space.text.toList ++ rest, rfl, by simp, ?_⟩
    simpa [chars] using Text.isWord_of_isBlank (space.blank c (by simp [chars]))
  obtain ⟨rest, rfl⟩ := begins
  unfold keywords front
  cases i.exported with
  | none => exact ⟨"interface", by simp, by simpa using alone "interface" i.opening rest⟩
  | some space => exact ⟨"export", by simp, by simpa using alone "export" space _⟩

/-! ### Removal -/

theorem atEdge_of_letter {before : List Char} {c : Char} {rest : List Char}
    (ends : ∀ a ∈ before.head?, Text.isWord a = false) (letter : Text.isWord c = true) :
    Cursor.atEdge ⟨before, c :: rest⟩ = true := by
  cases before with
  | nil => simp [Cursor.atEdge, letter]
  | cons a before => simp [Cursor.atEdge, letter, ends a rfl]

theorem takes_exported {before : List Char} (ends : ∀ c ∈ before.head?, Text.isWord c = false)
    (rest : List Char) :
    Script.exported.Takes before i.front.toList ("interface".toList ++ rest) ∧
      ∀ c ∈ (i.front.toList.reverse ++ before).head?, Text.isWord c = false := by
  unfold front
  cases i.exported with
  | none =>
    -- the two keywords begin with different letters
    refine ⟨.absent fun ys groups rest' reads same => ?_, by simpa using ends⟩
    simp only [reads_all_iff, readsAll_edge_iff, readsAll_literal_iff] at reads
    obtain ⟨_, -, rfl⟩ := reads
    exact absurd (List.cons.inj same).1 (by decide)
  | some space =>
    have solid : ∀ c ∈ ("interface".toList ++ rest).head?, Text.isBlank c = false := by
      simp
      decide
    have edge : Cursor.atEdge ⟨before, "export".toList ++ (space.text.toList ++
        ("interface".toList ++ rest))⟩ = true := atEdge_of_letter ends (by decide)
    have whole : ("export" ++ space.text).toList =
        [] ++ ("export".toList ++ space.text.toList) := by simp
    refine ⟨?_, fun c last => ?_⟩
    · rw [whole]
      exact .present (takes_all (.next (.edge edge) (.next (.literal "export" _ _)
        (.last (space.takes solid _)))))
    · obtain ⟨init, z, chars⟩ : ∃ init z, space.text.toList = init ++ [z] :=
        ⟨_, _, (List.dropLast_concat_getLast space.isGap.1).symm⟩
      obtain rfl : z = c := by simpa [chars] using last
      exact Text.isWord_of_isBlank (space.blank z (by simp [chars]))

theorem takes_block (before after : List Char) :
    block.Takes before ("\x7b" ++ i.body ++ "\x7d").toList after := by
  have inside : ∀ c ∈ i.body.toList, (CharClass.except ['\x7d']).has c = true := by
    intro c listed
    have other := i.braceless c listed
    simp only [List.mem_cons, List.not_mem_nil, or_false, not_or] at other
    simp [CharClass.has, other.2]
  have whole : ("\x7b" ++ i.body ++ "\x7d").toList =
      "\x7b".toList ++ (i.body.toList ++ "\x7d".toList) := by simp
  rw [whole]
  exact takes_all (.next (.literal "\x7b" _ _) (.next (.many inside (by simp [CharClass.has]))
    (.last (.literal "\x7d" _ _))))

/-- A bare declaration is what the rule for interfaces takes. -/
theorem takes_of_isBare (bare : i.IsBare) {before : List Char}
    (ends : ∀ c ∈ before.head?, Text.isWord c = false) (after : List Char) :
    interfaceBlock.Takes before i.text.toList after := by
  have whole : i.text.toList = i.front.toList ++ ([] ++ ("interface".toList ++
      (i.opening.text.toList ++ (i.name.text.toList ++ (i.before.text.toList ++
        ("\x7b" ++ i.body ++ "\x7d").toList))))) := by
    simp [text, keywords, behind, bare.heritage, Heritage.text]
  have behind' : i.before.text.toList ++ ("\x7b" ++ i.body ++ "\x7d").toList =
      i.behind.toList := by
    simp [behind, bare.heritage, Heritage.text]
  rw [whole]
  obtain ⟨first, ends'⟩ := i.takes_exported ends (i.opening.text.toList ++
    (i.name.text.toList ++ (i.before.text.toList ++ ("\x7b" ++ i.body ++ "\x7d").toList)) ++ after)
  have edge (rest : List Char) : Cursor.atEdge
      ⟨i.front.toList.reverse ++ before, "interface".toList ++ rest⟩ = true :=
    atEdge_of_letter ends' (by decide)
  obtain ⟨a, letters, chars, letter⟩ := i.name.exists_first
  have solid : ∀ c ∈ (i.name.text.toList ++ (i.before.text.toList ++
      ("\x7b" ++ i.body ++ "\x7d").toList) ++ after).head?, Text.isBlank c = false := by
    simpa [chars] using ((isNameChar_iff a).mp letter).1
  have stops : ∀ c ∈ (i.before.text.toList ++ ("\x7b" ++ i.body ++ "\x7d").toList ++ after).head?,
      CharClass.word.has c = false := by
    rw [behind']
    exact i.head?_behind after
  have members : ∀ c ∈ i.before.text.toList, CharClass.blank.has c = true := i.before.blank
  have brace : ∀ c ∈ (("\x7b" ++ i.body ++ "\x7d").toList ++ after).head?,
      CharClass.blank.has c = false := by
    simp
    decide
  exact takes_all (.next (by simpa using first) (.next (.edge (edge _))
    (.next (.literal "interface" _ _) (.next (i.opening.takes solid _)
      (.next (.oneOrMore (by simp [chars]) bare.name stops)
        (.next (.many members brace) (.last (i.takes_block _ after))))))))

theorem applyAll_of_keeps {rules : List RewriteRule} {xs : List Char}
    (keeps : ∀ rule ∈ rules, rule.Keeps xs []) : applyAll rules xs = xs := by
  induction rules with
  | nil => rfl
  | cons rule rules ih =>
    rw [List.forall_mem_cons] at keeps
    rw [applyAll, List.foldl_cons, RewriteRule.apply, keeps.1.applyFrom_eq []]
    exact ih keeps.2

/-- The rule for interfaces takes a bare declaration out of a text and keeps the rest. -/
theorem apply_interface (bare : i.IsBare) {before after : String} (untyped : IsUntyped before)
    (untyped' : IsUntyped after) (ends : ∀ c ∈ before.toList.getLast?, Text.isWord c = false) :
    interfaceRule.apply (before.toList ++ (i.text.toList ++ after.toList)) =
      before.toList ++ after.toList := by
  have listed : interfaceRule ∈ typeRules := by simp [typeRules_eq]
  have first : interfaceRule.Keeps before.toList (i.text.toList ++ after.toList) :=
    untyped.keeps (.inr ends) interfaceRule listed
  have takes : interfaceRule.pattern.Takes (before.toList.reverse ++ []) i.text.toList
      after.toList := i.takes_of_isBare bare (by simpa using ends) after.toList
  have nonempty : i.text.toList ≠ [] := by simp [text, keywords]
  have last : interfaceRule.Keeps after.toList [] := untyped'.keeps (.inl rfl) interfaceRule listed
  rw [RewriteRule.apply, first [], RewriteRule.applyFrom_takes rfl takes nonempty,
    last.applyFrom_eq]

/-- Where no other type syntax stands around it, a declaration is removed exactly if it has a name
of word characters and neither parameters nor bases. -/
theorem stripTypes_interface_iff {before after : String} (untyped : IsUntyped before)
    (untyped' : IsUntyped after) (ends : ∀ c ∈ before.toList.getLast?, Text.isWord c = false) :
    stripTypes (before ++ i.text ++ after) = before ++ after ↔ i.IsBare := by
  rw [stripTypes, ← String.toList_inj, String.toList_ofList]
  simp only [String.toList_append, List.append_assoc]
  constructor
  · intro removed
    by_contra bad
    -- the keywords that are left would begin what follows
    have begins := i.keywords_prefix bad untyped ends after.toList
    have whole : before.toList ++ i.keywords.toList ++ (i.name.text.toList ++
        (i.behind.toList ++ after.toList)) = before.toList ++ (i.text.toList ++ after.toList) := by
      simp [text]
    rw [whole, removed, List.prefix_append_right_inj] at begins
    obtain ⟨w, listed, worded⟩ := i.exists_hasWord begins
    exact untyped'.wordless w (List.mem_append_left ["type", "as"] listed) worded
  · intro bare
    rw [typeRules_eq, applyAll, List.foldl_cons, i.apply_interface bare untyped untyped' ends]
    refine applyAll_of_keeps fun rule listed => ?_
    have typed : rule ∈ typeRules := List.mem_cons_of_mem interfaceRule listed
    exact (untyped.keeps (.inr ends) rule typed).append (untyped'.keeps (.inl rfl) rule typed)

def extended : Interface where
  exported := none
  opening := ⟨.single, by decide⟩
  name := ⟨"A", by decide, by decide⟩
  heritage := .bases ⟨.single, by decide⟩ ⟨.single, by decide⟩
    [(.nothing, ⟨"B", by decide, by decide⟩, .nothing)] (by simp)
  before := .single
  body := "\n  x;\n"
  braceless := by decide

/-- The declaration of an interface with a base is left in the text. -/
theorem extended_left : IsUntyped "let a;\n" ∧ IsUntyped "\nlet b;" ∧
    (∀ c ∈ "let a;\n".toList.getLast?, Text.isWord c = false) ∧
    extended.text = "interface A extends B \x7b\n  x;\n\x7d" ∧
    stripTypes ("let a;\n" ++ extended.text ++ "\nlet b;") ≠ "let a;\n" ++ "\nlet b;" := by
  have untyped {text : String} (markless : ∀ c ∈ [':', '<', '>'], c ∉ text.toList)
      (wordless : ∀ w ∈ ["export", "interface", "type", "as"], ¬w.toList <:+: text.toList) :
      IsUntyped text := ⟨markless, fun w listed worded => wordless w listed worded.infix⟩
  have before : IsUntyped "let a;\n" := untyped (by decide) (by decide)
  have after : IsUntyped "\nlet b;" := untyped (by decide) (by decide)
  have ends : ∀ c ∈ "let a;\n".toList.getLast?, Text.isWord c = false := by
    simp
    decide
  refine ⟨before, after, ends, by decide, fun removed => ?_⟩
  have bare := (extended.stripTypes_interface_iff before after ends).mp removed
  exact absurd bare.heritage (by simp [extended])

end Interface

end Workbench.Script
