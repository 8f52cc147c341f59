import Workbench.Proofs.Pattern.Behind
import Workbench.Proofs.Pattern.Words
import Workbench.Proofs.Script.Names

/-!
# What the rules for types read

Two of the rules look for declarations, which begin with keywords and go on to a brace. The other
three look for annotations, casts and the arguments of calls.
-/
namespace Workbench.Script

open Pattern

def interfaceRule : RewriteRule := ⟨interfaceBlock, []⟩

def aliasRule : RewriteRule := ⟨aliasBlock, []⟩

def annotationRule : RewriteRule := ⟨typeMark, []⟩

def castRule : RewriteRule := ⟨cast, []⟩

def callRule : RewriteRule := ⟨callArguments, [.group 1]⟩

theorem typeRules_eq :
    typeRules = [interfaceRule, aliasRule, annotationRule, castRule, callRule] := rfl

theorem readsAll_edge_iff (rest : List Pattern) (xs : List Char)
    (groups : List (Nat × List Char)) :
    ReadsAll (.edge :: rest) xs groups ↔ ReadsAll rest xs groups := by
  constructor
  · rintro ⟨_, _, _, _, ⟨⟩, later, rfl, rfl⟩
    simpa using later
  · exact fun later => ⟨[], xs, [], groups, .edge, later, by simp, by simp⟩

/-- What may stand in front of a declaration. -/
def IsExport (xs : List Char) : Prop := xs = [] ∨ ∃ gap, IsGap gap ∧ xs = "export".toList ++ gap

/-- What stands in front of a declaration ends where a letter comes that it does not begin with. -/
theorem IsExport.unique {front front' rest rest' : List Char} {c d : Char}
    (isExport : IsExport front) (isExport' : IsExport front')
    (solid : Text.isBlank c = false ∧ c ≠ 'e') (solid' : Text.isBlank d = false ∧ d ≠ 'e')
    (same : front ++ c :: rest = front' ++ d :: rest') : c :: rest = d :: rest' := by
  rcases isExport with rfl | ⟨gap, isGap, rfl⟩ <;> rcases isExport' with rfl | ⟨gap', isGap', rfl⟩
  · exact same
  · exact absurd (List.cons.inj same).1 solid.2
  · exact absurd (List.cons.inj same).1.symm solid'.2
  · rw [List.append_assoc, List.append_assoc, List.append_cancel_left_eq] at same
    exact (spans_unique isGap.2 isGap'.2 (by simpa using solid.1) (by simpa using solid'.1) same).2

theorem isExport_of_reads {xs : List Char} {groups : List (Nat × List Char)}
    (reads : exported.Reads xs groups) : IsExport xs := by
  simp only [exported, reads_maybe_iff, reads_all_iff, readsAll_edge_iff, readsAll_literal_iff,
    readsAll_space_iff, readsAll_nil_iff] at reads
  rcases reads with ⟨_, ⟨gap, _, isGap, ⟨rfl, -⟩, rfl⟩, rfl⟩ | ⟨rfl, -⟩
  · exact .inr ⟨gap, isGap, by simp⟩
  · exact .inl rfl

def IsName (xs : List Char) : Prop := xs ≠ [] ∧ ∀ c ∈ xs, Text.isWord c = true

theorem IsName.last {xs word : List Char} (isName : IsName word) :
    ∀ c ∈ (xs ++ word).getLast?, Text.isWord c = true ∧ Text.isBlank c = false := by
  intro c last
  rw [List.getLast?_append_of_ne_nil _ isName.1] at last
  have letter := isName.2 c (List.mem_of_getLast? last)
  exact ⟨letter, Text.isBlank_of_isWord letter⟩

theorem isName_of_reads {xs : List Char} {groups : List (Nat × List Char)}
    (reads : name.Reads xs groups) : IsName xs := by
  obtain ⟨nonempty, members, -⟩ := (reads_oneOrMore_iff _).mp reads
  exact ⟨nonempty, members⟩

theorem exists_of_reads_interface {xs : List Char} {groups : List (Nat × List Char)}
    (reads : interfaceBlock.Reads xs groups) : ∃ front gap word gap' more, IsExport front ∧
      IsGap gap ∧ IsName word ∧ (∀ c ∈ gap', Text.isBlank c = true) ∧
      xs = front ++ ("interface".toList ++ (gap ++ (word ++ (gap' ++ '\x7b' :: more)))) := by
  simp only [interfaceBlock, reads_all_iff, readsAll_cons_iff exported, readsAll_edge_iff,
    readsAll_literal_iff, readsAll_space_iff, readsAll_cons_iff name, readsAll_cons_iff Script.gap,
    readsAll_cons_iff block, reads_block_iff] at reads
  obtain ⟨front, _, _, _, opening, ⟨_, ⟨gap, _, isGap, ⟨word, _, _, _, isName, ⟨gap', _, _, _,
    blank, ⟨_, more, _, _, ⟨⟨body, -, rfl⟩, -⟩, -, rfl, -⟩, rfl, -⟩, rfl, -⟩, rfl⟩, rfl⟩, rfl, -⟩ :=
    reads
  exact ⟨front, gap, word, gap', body ++ '\x7d' :: more, isExport_of_reads opening, isGap,
    isName_of_reads isName, ((reads_many_iff _).mp blank).1, by simp⟩

theorem exists_of_reads_alias {xs : List Char} {groups : List (Nat × List Char)}
    (reads : aliasBlock.Reads xs groups) : ∃ front gap word gap' gap'' more, IsExport front ∧
      IsGap gap ∧ IsName word ∧ (∀ c ∈ gap', Text.isBlank c = true) ∧
      (∀ c ∈ gap'', Text.isBlank c = true) ∧ xs = front ++ ("type".toList ++ (gap ++ (word ++
        (gap' ++ '=' :: (gap'' ++ '\x7b' :: more))))) := by
  simp only [aliasBlock, reads_all_iff, readsAll_cons_iff exported, readsAll_edge_iff,
    readsAll_literal_iff, readsAll_space_iff, readsAll_cons_iff name, readsAll_cons_iff Script.gap,
    readsAll_cons_iff block, reads_block_iff] at reads
  obtain ⟨front, _, _, _, opening, ⟨_, ⟨gap, _, isGap, ⟨word, _, _, _, isName, ⟨gap', _, _, _,
    blank, ⟨_, ⟨gap'', _, _, _, blank', ⟨_, more, _, _, ⟨⟨body, -, rfl⟩, -⟩, -, rfl, -⟩, rfl, -⟩,
    rfl⟩, rfl, -⟩, rfl, -⟩, rfl⟩, rfl⟩, rfl, -⟩ := reads
  exact ⟨front, gap, word, gap', gap'', body ++ '\x7d' :: more, isExport_of_reads opening, isGap,
    isName_of_reads isName, ((reads_many_iff _).mp blank).1, ((reads_many_iff _).mp blank').1,
    by simp⟩

theorem head?_of_reads_annotation {xs : List Char} {groups : List (Nat × List Char)}
    (reads : typeMark.Reads xs groups) : xs.head? = some ':' := by
  simp only [typeMark, reads_all_iff, readsAll_literal_iff] at reads
  obtain ⟨_, -, rfl⟩ := reads
  rfl

theorem exists_of_reads_cast {xs : List Char} {groups : List (Nat × List Char)}
    (reads : cast.Reads xs groups) : ∃ gap word, IsGap gap ∧ IsName word ∧
      xs = "as".toList ++ (gap ++ word) := by
  simp only [cast, reads_all_iff, readsAll_edge_iff, readsAll_literal_iff, readsAll_space_iff,
    readsAll_cons_iff name, readsAll_nil_iff] at reads
  obtain ⟨_, ⟨gap, _, isGap, ⟨word, _, _, _, isName, ⟨rfl, -⟩, rfl, -⟩, rfl⟩, rfl⟩ := reads
  exact ⟨gap, word, isGap, isName_of_reads isName, by simp⟩

theorem head?_of_reads_call {xs : List Char} {groups : List (Nat × List Char)}
    (reads : callArguments.Reads xs groups) : xs.head? = some '<' := by
  simp only [callArguments, typeArguments, reads_all_iff, readsAll_cons_iff (all _ _),
    readsAll_literal_iff] at reads
  obtain ⟨_, _, _, _, ⟨_, -, rfl⟩, -, rfl, -⟩ := reads
  rfl

/-- A rule for what begins with a mark keeps a text without that mark. -/
theorem keeps_of_notMem {rule : RewriteRule} {a : Char} {xs : List Char}
    (begins : ∀ ys groups, rule.pattern.Reads ys groups → ys.head? = some a) (free : a ∉ xs)
    (rest : List Char) : rule.Keeps xs rest := by
  refine RewriteRule.keeps_of_fails fun back ends nonempty before => ?_
  refine failsAt_of_reads fun ys groups rest' reads same => ?_
  obtain ⟨ys, rfl⟩ := List.head?_eq_some_iff.mp (begins ys groups reads)
  obtain ⟨c, back, rfl⟩ := List.exists_cons_of_ne_nil nonempty
  obtain rfl : c = a := (List.cons.inj same).1
  exact free (ends.subset List.mem_cons_self)

/-- A rule keeps a text of which it reads no part. -/
theorem apply_of_unread {rule : RewriteRule} {text : List Char} (unread : ∀ front ys groups rest,
    rule.pattern.Reads ys groups → text ≠ front ++ (ys ++ rest)) : rule.apply text = text := by
  refine RewriteRule.Keeps.applyFrom_eq (RewriteRule.keeps_of_fails fun back ends _ before => ?_) []
  rw [List.append_nil]
  obtain ⟨front, rfl⟩ := ends
  refine failsAt_of_reads fun ys groups rest reads same => unread front ys groups rest reads ?_
  exact congrArg (front ++ ·) same

end Workbench.Script
