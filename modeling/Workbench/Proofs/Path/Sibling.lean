import Workbench.Disk.Atomic
import Workbench.Proofs.Path.Descent

/-! The parts of a path whose last step is a name. Its temporary sibling leads through the names of
the parent. -/
namespace Workbench.Path

/-- The name of the temporary file beside a file. -/
def temporaryName (name : String) : String := "." ++ name ++ ".tmp"

theorem temporaryName_ne (name : String) : temporaryName name ≠ name := by
  intro same
  have length := congrArg String.length same
  simp only [temporaryName, String.length_append] at length
  have dot : ".".length = 1 := rfl
  omega

theorem temporaryName_toList (name : String) :
    (temporaryName name).toList = '.' :: (name.toList ++ ".tmp".toList) := by
  simp [temporaryName, String.toList_append]

theorem temporaryName_ne_empty (name : String) : temporaryName name ≠ "" := by
  intro empty
  have chars := temporaryName_toList name
  rw [empty] at chars
  simp at chars

theorem isAbsolute_temporaryName (name : String) : isAbsolute ⟨temporaryName name⟩ = false := by
  simp [isAbsolute, temporaryName_toList]

theorem endsInSlash_temporaryName (name : String) : endsInSlash ⟨temporaryName name⟩ = false := by
  have chars : (temporaryName name).toList = ('.' :: name.toList ++ ".tm".toList) ++ ['p'] := by
    simp [temporaryName_toList]
  rw [endsInSlash, chars, List.getLast?_concat]
  decide

theorem endsInSlash_temporary (p : Path) : p.temporary.endsInSlash = false := by
  have child (q : Path) (name : String) : (q.child (temporaryName name)).endsInSlash = false := by
    have nonempty : (Path.mk (temporaryName name)).text ≠ "" := temporaryName_ne_empty name
    rw [Path.child, endsInSlash_join nonempty, endsInSlash_temporaryName]
  unfold temporary withFileName
  split <;> exact child _ _

theorem names_temporaryName (name : String) (free : '/' ∉ name.toList) :
    names ⟨temporaryName name⟩ = [temporaryName name] := by
  have absent : '/' ∉ (temporaryName name).toList := by simp [temporaryName_toList, free]
  have nonempty : (temporaryName name).toList ≠ [] := by simp [temporaryName_toList]
  rw [names_eq_namesOf, Text.splitAt_of_notMem '/' _ absent]
  simp [namesOf, nonempty]

variable {p : Path} {name : String} {front : List String}

/-- The stretches of a path up to the last one that means something, if that is a name. -/
theorem exists_trimmedBody (names : p.names = front ++ [name]) (here : name ≠ ".") :
    ∃ above, p.trimmedBody = above ++ [name.toList] ∧
      front = namesOf (p.anchor.segments ++ above) := by
  obtain ⟨back, whole, void⟩ := Text.exists_dropLastWhile isVoid p.body
  change p.body = p.trimmedBody ++ back at whole
  have still := namesOf_void back void
  rw [names_eq_anchor, whole] at names
  rcases List.eq_nil_or_concat' p.trimmedBody with empty | ⟨above, last, trimmed⟩
  · -- only dots are left, and the name is none
    exfalso
    rw [empty, List.nil_append, namesOf_append] at names
    have member : name ∈ namesOf p.anchor.segments ++ namesOf back := by simp [names]
    rcases List.mem_append.mp member with start | tail
    · cases anchored : p.anchor <;> simp [anchored, Anchor.segments, namesOf, here] at start
    · exact here (still name tail)
  · have solid : isVoid last = false := Text.last_of_dropLastWhile isVoid p.body above last trimmed
    simp only [isVoid, Bool.or_eq_false_iff, decide_eq_false_iff_not] at solid
    have own : namesOf [last] = [String.ofList last] := by simp [namesOf, solid.1]
    rw [trimmed, ← List.append_assoc, ← List.append_assoc, namesOf_append, namesOf_append, own]
      at names
    rcases List.eq_nil_or_concat' (namesOf back) with nothing | ⟨dots, dot, dotted⟩
    · rw [nothing, List.append_nil] at names
      obtain ⟨above', same⟩ := List.append_inj' names rfl
      have same : String.ofList last = name := by simpa using same
      exact ⟨above, by rw [trimmed, ← same, String.toList_ofList], above'.symm⟩
    · exfalso
      rw [dotted, ← List.append_assoc] at names
      have last' := (List.append_inj' names rfl).2
      exact here ((List.singleton_inj.mp last').symm.trans (still dot (by simp [dotted])))

/-- The parent of a path leads, dots apart, through the names before the last. -/
theorem exists_parent (names : p.names = front ++ [name]) (here : name ≠ ".") (up : name ≠ "..") :
    ∃ parent dots, p.parent? = some parent ∧ p.fileName? = some name ∧
      front = parent.names ++ dots ∧ (∀ step ∈ dots, step = ".") ∧
      (p.hasNul = false → parent.hasNul = false) := by
  obtain ⟨above, trimmed, before⟩ := exists_trimmedBody names here
  obtain ⟨back, whole, void⟩ := Text.exists_dropLastWhile isVoid above
  have begins : Text.dropLastWhile isVoid above <+: p.body :=
    (Text.isPrefix_dropLastWhile _ _).trans
      (List.IsPrefix.trans ⟨[name.toList], trimmed.symm⟩ p.isPrefix_trimmedBody)
  refine ⟨ofBody p.anchor (Text.dropLastWhile isVoid above), namesOf back, ?_, ?_, ?_,
    namesOf_void back void, hasNul_cut _ begins⟩
  · rw [parent?, trimmed]
    split
    next empty => simp at empty
    next => rw [List.dropLast_concat]
  · have dotted : name.toList ≠ ['.', '.'] := fun chars => up (by
      rw [← String.ofList_toList (s := name), chars])
    rw [fileName?, trimmed, List.getLast?_concat]
    simp [dotted]
  · rw [before, names_cut _ begins, ← namesOf_append, List.append_assoc, ← whole]

/-- What is known of the temporary file beside a file. -/
structure Beside (p temp : Path) (front : List String) (name : String) : Prop where
  names : ∃ above dots, front = above ++ dots ∧ (∀ step ∈ dots, step = ".") ∧
    temp.names = above ++ [temporaryName name]
  nonempty : temp.text ≠ ""
  level : temp.endsInSlash = false
  isAbsolute : temp.isAbsolute = p.isAbsolute
  hasNul : p.hasNul = false → Char.ofNat 0 ∉ name.toList → temp.hasNul = false

theorem beside_temporary (names : p.names = front ++ [name]) (here : name ≠ ".") (up : name ≠ "..")
    (free : '/' ∉ name.toList) : Beside p p.temporary front name := by
  obtain ⟨parent, dots, above, last, before, still, clean⟩ := exists_parent names here up
  have relative := isAbsolute_temporaryName name
  have nonempty : (Path.mk (temporaryName name)).text ≠ "" := temporaryName_ne_empty name
  have same : p.temporary = parent.join ⟨temporaryName name⟩ := by
    simp [temporary, withFileName, above, last, temporaryName, child]
  have level := p.endsInSlash_temporary
  rw [same] at level ⊢
  refine ⟨⟨parent.names, dots, before, still, ?_⟩, text_join_ne nonempty, level, ?_,
    fun nul absent => ?_⟩
  · rw [names_join parent relative, names_temporaryName name free]
  · rw [← parent?_isAbsolute above]
    by_cases empty : parent.text = ""
    · have lone : parent = ⟨""⟩ := by cases parent; simpa using empty
      subst lone
      simp [join, isAbsolute, temporaryName_toList]
    · exact isAbsolute_join empty relative
  · rw [hasNul_join relative, clean nul, Bool.false_or]
    simpa [hasNul, temporaryName_toList] using absent

end Workbench.Path
