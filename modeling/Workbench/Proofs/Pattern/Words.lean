import Workbench.Proofs.Pattern.Language

/-!
# Words

A pattern that begins at an edge and reads a word with a blank behind it fits only where the word
stands on its own. So a rule for such a pattern keeps a text in which the word stands nowhere, or as
a part of longer words only.
-/
namespace Workbench

/-- Blanks are no characters of words. -/
theorem Text.isWord_of_isBlank {c : Char} (blank : isBlank c = true) : isWord c = false := by
  -- there are few blanks, and each of them is checked by its number
  have apart : ∀ n ∈ [0x9, 0xA, 0xB, 0xC, 0xD, 0x20, 0x85, 0xA0, 0x1680, 0x2000, 0x2001, 0x2002,
      0x2003, 0x2004, 0x2005, 0x2006, 0x2007, 0x2008, 0x2009, 0x200A, 0x2028, 0x2029, 0x202F,
      0x205F, 0x3000], isWord (Char.ofNat n) = false := by decide +kernel
  rw [← Char.ofNat_toNat c]
  apply apart
  simp only [isBlank, Bool.or_eq_true, Bool.and_eq_true, decide_eq_true_eq, beq_iff_eq] at blank
  simp only [List.mem_cons, List.not_mem_nil, or_false]
  omega

theorem Text.isBlank_of_isWord {c : Char} (letter : isWord c = true) : isBlank c = false := by
  cases blank : isBlank c with
  | false => rfl
  | true => simp [isWord_of_isBlank blank] at letter

/-- A word stands in a text on its own, and not as a part of a longer word. -/
def HasWord (word text : List Char) : Prop :=
  ∃ front back, text = front ++ (word ++ back) ∧
    (∀ c ∈ front.getLast?, Text.isWord c = false) ∧ ∀ c ∈ back.head?, Text.isWord c = false

theorem HasWord.infix {word text : List Char} (hasWord : HasWord word text) : word <:+: text := by
  obtain ⟨front, back, rfl, -⟩ := hasWord
  exact ⟨front, back, by simp⟩

namespace Pattern

/-- Whether a pattern asks for an edge before it takes a character. -/
def needsEdge : Pattern → Bool
  | .edge => true
  | .one _ | .many _ _ | .maybe _ => false
  | .seq (.maybe part) q => part.needsEdge && q.needsEdge
  | .seq p _ => p.needsEdge
  | .capture _ part => part.needsEdge

theorem Fits.atEdge {p : Pattern} {start done : Fit} {turns : List Turn}
    (fits : p.Fits start turns done) (needs : p.needsEdge = true) :
    start.cursor.atEdge = true := by
  -- an optional part in front may be left out, and then the next part asks for the edge
  induction p using needsEdge.induct generalizing start turns done with
  | case1 =>
    cases fits with
    | edge atEdge => exact atEdge
  | case2 | case3 | case4 => simp [needsEdge] at needs
  | case5 part q ih ih' =>
    rw [needsEdge, Bool.and_eq_true] at needs
    cases fits with
    | seq first second =>
      cases first with
      | present first => exact ih first needs.1
      | absent => exact ih' second needs.2
  | case6 p q other ih =>
    rw [needsEdge] at needs
    · cases fits with
      | seq first second => exact ih first needs
    · exact other
  | case7 number part ih =>
    rw [needsEdge] at needs
    cases fits with
    | capture fits => exact ih fits needs

/-- A pattern that begins at an edge, and reads one of some words with a blank behind it. -/
structure OpensWith (p : Pattern) (words : List String) : Prop where
  edge : p.needsEdge = true
  solid : ∀ w ∈ words, w ≠ "" ∧ ∀ c ∈ w.toList, Text.isWord c = true
  opens : ∀ xs groups, p.Reads xs groups →
    ∃ w ∈ words, ∃ c more, xs = w.toList ++ c :: more ∧ Text.isBlank c = true

theorem OpensWith.exists_word {p : Pattern} {words : List String} (opens : p.OpensWith words)
    {before after : List Char} {turns : List Turn} {fit : Fit}
    (fits : p.Fits ⟨⟨before, after⟩, []⟩ turns fit) :
    (∀ c ∈ before.head?, Text.isWord c = false) ∧
      ∃ w ∈ words, ∃ c more, after = w.toList ++ c :: more ∧ Text.isBlank c = true := by
  obtain ⟨xs, groups, reads, after', -⟩ := fits.reads
  obtain ⟨w, listed, c, more, rfl, blank⟩ := opens.opens xs groups reads
  have here : after = w.toList ++ c :: (more ++ fit.cursor.after) := by simpa using after'
  refine ⟨?_, w, listed, c, _, here, blank⟩
  have atEdge := fits.atEdge opens.edge
  obtain ⟨nonempty, solid⟩ := opens.solid w listed
  obtain ⟨a, rest, chars⟩ := List.exists_cons_of_ne_nil (l := w.toList) (by simpa using nonempty)
  have first : Text.isWord a = true := solid a (by simp [chars])
  cases before with
  | nil => simp
  | cons b before => simpa [Cursor.atEdge, here, chars, first] using atEdge

end Pattern

namespace RewriteRule

variable {rule : RewriteRule} {words : List String}

/-- A text is kept in which none of the words stands on its own, if no word goes on behind it. -/
theorem keeps_of_wordless (opens : rule.pattern.OpensWith words) {text rest : List Char}
    (wordless : ∀ w ∈ words, ¬HasWord w.toList text)
    (ends : rest = [] ∨ ∀ c ∈ text.getLast?, Text.isWord c = false) : rule.Keeps text rest := by
  refine keeps_of_free fun before front back cut nonempty turns fit fits => ?_
  obtain ⟨edge, w, listed, c, more, same, blank⟩ := opens.exists_word fits
  have behind := Text.isWord_of_isBlank blank
  refine wordless w listed ?_
  have begins : ∀ c ∈ front.getLast?, Text.isWord c = false := by
    intro c last
    refine edge c ?_
    rw [List.head?_append, List.head?_reverse, last]
    rfl
  rcases List.append_eq_append_iff.mp same with ⟨between, word, here⟩ | ⟨between, rfl, here⟩
  · -- the word would go on behind the text
    cases between with
    | nil => exact ⟨front, [], by simp [cut, word], begins, by simp⟩
    | cons a between =>
      rcases ends with rfl | ends
      · cases here
      · obtain ⟨init, z, rfl⟩ : ∃ init z, back = init ++ [z] :=
          ⟨_, _, (List.dropLast_concat_getLast nonempty).symm⟩
        have last := ends z (by simp [cut])
        have inside := (opens.solid w listed).2 z (by simp [word])
        simp [inside] at last
  · refine ⟨front, between, cut, begins, fun a first => ?_⟩
    obtain ⟨more', rfl⟩ := List.head?_eq_some_iff.mp first
    cases here
    exact behind

end RewriteRule

end Workbench
