import Workbench.Proofs.Disk.Place
import Workbench.Proofs.Text.Split
import Workbench.Proofs.Text.Trim

/-!
# New files

A name may lead a new file down from its directory and nowhere else. Names that would not are refused
before anything is made. What is at the place of the file already stays as it is.
-/
namespace Workbench

namespace Text

/-- Slashes of either kind. -/
def IsSlash (c : Char) : Prop := c = '/' ∨ c = '\\'

end Text

theorem Error.ofFault_ne_refused (q : Path) (fault : Fault) (r : Refusal) :
    Error.ofFault q fault ≠ .refused r := by
  unfold Error.ofFault
  split <;> simp

namespace Disk

open Text (IsSlash)

/-- A name that is refused. It is blank, or absolute, or goes up between two slashes of either kind
or ends of the name. -/
inductive IsRefused (name : String) : Prop where
  | blank (all : ∀ c ∈ name.toList, Text.isBlank c = true)
  | absolute (rooted : (Path.mk name).isAbsolute = true)
  | up (front back : List Char) (text : name.toList = front ++ ['.', '.'] ++ back)
    (before : front = [] ∨ ∃ c, front.getLast? = some c ∧ IsSlash c)
    (behind : back = [] ∨ ∃ c, back.head? = some c ∧ IsSlash c)

variable {d d' : Disk} {dir p : Path} {name : String}

theorem climbs_iff (name : String) : climbs name = true ↔
    ∃ front back, name.toList = front ++ ['.', '.'] ++ back ∧
      (front = [] ∨ ∃ c, front.getLast? = some c ∧ IsSlash c) ∧
      (back = [] ∨ ∃ c, back.head? = some c ∧ IsSlash c) := by
  rw [climbs, List.contains_iff_mem, List.mem_flatMap]
  constructor
  · rintro ⟨piece, outer, inner⟩
    obtain ⟨-, front, back, same, begins, ends⟩ := (Text.mem_splitAt_iff _ _ _).mp outer
    obtain ⟨-, front', back', rfl, begins', ends'⟩ := (Text.mem_splitAt_iff _ _ _).mp inner
    refine ⟨front ++ front', back' ++ back, by simp [same], ?_, ?_⟩
    · rcases begins' with rfl | last
      · rw [List.append_nil]
        exact begins.imp_right fun last => ⟨_, last, .inl rfl⟩
      · exact .inr ⟨_, by simp [List.getLast?_append, last], .inr rfl⟩
    · rcases ends' with rfl | head
      · rw [List.nil_append]
        exact ends.imp_right fun head => ⟨_, head, .inl rfl⟩
      · exact .inr ⟨_, by simp [List.head?_append, head], .inr rfl⟩
  · rintro ⟨front, back, same, begins, ends⟩
    -- the piece between slashes of the first kind
    obtain ⟨far, near, rfl, free, cut⟩ := Text.exists_last_cut '/' front
    obtain ⟨near', far', rfl, free', cut'⟩ := Text.exists_first_cut '/' back
    refine ⟨near ++ ['.', '.'] ++ near', (Text.mem_splitAt_iff _ _ _).mpr
      ⟨by simp [free, free'], far, far', by simp [same], cut, cut'⟩,
      (Text.mem_splitAt_iff _ _ _).mpr ⟨by decide, near, near', rfl, ?_, ?_⟩⟩
    · by_cases empty : near = []
      · exact .inl empty
      · obtain ⟨c, last, slash⟩ := begins.resolve_left (by simp [empty])
        rw [List.getLast?_append_of_ne_nil _ empty] at last
        have member := List.mem_of_getLast? last
        rcases slash with rfl | rfl
        · exact absurd member free
        · exact .inr last
    · by_cases empty : near' = []
      · exact .inl empty
      · obtain ⟨c, head, slash⟩ := ends.resolve_left (by simp [empty])
        rw [List.head?_append_of_ne_nil _ empty] at head
        have member := List.mem_of_head? head
        rcases slash with rfl | rfl
        · exact absurd member free'
        · exact .inr head

theorem isRefused_iff (name : String) : IsRefused name ↔
    Text.trim name = "" ∨ (Path.mk name).isAbsolute = true ∨ climbs name = true := by
  rw [Text.trim_eq_empty_iff, climbs_iff]
  constructor
  · rintro (all | rooted | ⟨front, back, text, before, behind⟩)
    · exact .inl all
    · exact .inr (.inl rooted)
    · exact .inr (.inr ⟨front, back, text, before, behind⟩)
  · rintro (all | rooted | ⟨front, back, text, before, behind⟩)
    · exact .blank all
    · exact .absolute rooted
    · exact .up front back text before behind

/-- What has become of a disk on which a file was made under a directory. -/
structure Created (dir : Path) (name : String) (d : Disk) (p : Path) (d' : Disk) : Prop where
  components : p.components = dir.components ++ if dir.text = "" then (Path.mk name).components
    else (Path.mk name).components.filter (· ≠ .here)
  level : .up ∉ (Path.mk name).components
  below : p.startsWith dir = true
  file : ∃ l, d'.locate true p = .ok l ∧
    ((∃ content runnable, d.get? l = some (.file content runnable) ∧ d'.get? l = d.get? l) ∨
      d.get? l = none ∧ d'.get? l = some (.file .empty false))
  kept : ∀ l e, d.get? l = some e → d'.get? l = some e
  new : ∀ l, d.get? l = none → (d'.get? l).isSome → d'.locate true p = .ok l ∨
    d'.get? l = some .directory ∧ ∃ front links, front <+: p.names ∧ d'.Leads (d.startOf p) front links l
  read : ∀ content, d.readBytes p = .ok content → d'.readBytes p = .ok content

theorem up_notMem_components (level : ".." ∉ (Path.mk name).names) :
    .up ∉ (Path.mk name).components := by
  rw [Path.components_eq, List.mem_append, not_or]
  constructor
  · cases (Path.mk name).anchor <;> decide
  · intro listed
    obtain ⟨segment, member, meant⟩ := List.mem_filterMap.mp listed
    have dots : segment = ['.', '.'] := by
      unfold Path.Component.ofSegment? at meant
      split at meant
      · cases meant
      · split at meant
        next dots => exact dots
        next => cases meant
    subst dots
    exact level (List.mem_map.mpr ⟨_, List.mem_filter.mpr ⟨member, by decide⟩, rfl⟩)

/-- A refused name is refused before anything is made. -/
theorem createFile_of_refused (dir : Path) (refused : IsRefused name) :
    ∃ r, createFile dir name d = (.error (.refused r), d) := by
  unfold createFile
  split
  · exact ⟨.emptyFileName, rfl⟩
  next solid =>
    have outside := ((isRefused_iff name).mp refused).resolve_left solid
    split
    · exact ⟨.escapingFileName name, rfl⟩
    next inside => exact absurd (by simpa using outside) inside

/-- No other name is refused: where it does not go through, a fault is told. -/
theorem isRefused_of_createFile (r : Refusal)
    (failed : createFile dir name d = (.error (.refused r), d')) : IsRefused name := by
  by_contra accepted
  rw [isRefused_iff, not_or, ← Bool.or_eq_true] at accepted
  unfold createFile at failed
  rw [if_neg accepted.1, if_neg accepted.2] at failed
  dsimp only at failed
  rw [bind_apply] at failed
  rcases made : makeParent (dir.join ⟨name⟩) d with ⟨e | ⟨⟩, mid⟩
  · rw [made] at failed
    cases failed
    cases parent : (dir.join ⟨name⟩).parent? with
    | none =>
      rw [makeParent, parent] at made
      cases made
    | some q =>
      rw [makeParent, parent] at made
      obtain ⟨fault, -, same⟩ := (Task.mapError_eq_error_iff _ _ _).mp made
      exact Error.ofFault_ne_refused q fault r same.symm
  · rw [made] at failed
    dsimp only at failed
    rw [bind_apply] at failed
    split at failed
    next => cases failed
    next e _ touched =>
      cases failed
      obtain ⟨fault, -, same⟩ := (Task.mapError_eq_error_iff _ _ _).mp touched
      exact Error.ofFault_ne_refused _ fault r same.symm

theorem Created.of_done (done : createFile dir name d = (.ok p, d')) : Created dir name d p d' := by
  have accepted : ¬IsRefused name := by
    intro refused
    obtain ⟨r, failed⟩ := createFile_of_refused (d := d) dir refused
    rw [done] at failed
    cases failed
  obtain ⟨-, relative, rfl, mid, k, parent, opened⟩ := createFile_eq_ok dir p done
  have level : climbs name = false := by
    by_contra climbs
    exact accepted ((isRefused_iff name).mpr (.inr (.inr (by simpa using climbs))))
  have made := made_of_makeParent (dir.join ⟨name⟩) d
  rw [parent] at made
  have written := written_of_opened false opened
  have kept := kept_of_opened opened
  have components : (dir.join ⟨name⟩).components = dir.components ++
      if dir.text = "" then (Path.mk name).components
      else (Path.mk name).components.filter (· ≠ .here) := by
    split
    next empty =>
      have lone : dir = ⟨""⟩ := by cases dir; simpa using empty
      subst lone
      simp [Path.join, relative]
      decide
    next nonempty => exact Path.components_join nonempty relative
  constructor
  · exact components
  · exact up_notMem_components (level_of_not_climbs level)
  · rw [Path.startsWith, components, List.isPrefixOf_iff_prefix]
    exact List.prefix_append _ _
  · refine ⟨k, written.located, ?_⟩
    rcases file_of_opened false opened with ⟨absent, fresh⟩ | ⟨content, runnable, found, same⟩
    · refine .inr ⟨?_, fresh⟩
      by_contra there
      obtain ⟨e, found⟩ := Option.ne_none_iff_exists'.mp there
      simp [made.kept k e found] at absent
    · have was := made.get?_of_solid found (by simp)
      exact .inl ⟨content, runnable, was, same.trans was.symm⟩
  · exact fun l e found => kept l e (made.kept l e found)
  · intro l absent there
    by_cases here : l = k
    · exact .inl (here ▸ written.located)
    · rw [written.same l here] at there ⊢
      obtain ⟨directory, front, links, begins, leads⟩ := made.made l absent there
      exact .inr ⟨directory, front, links, begins, leads.mono written.isPartOf⟩
  · intro content read
    obtain ⟨l, runnable, located, found⟩ := (readBytes_eq_ok_iff _ _).mp read
    have located := locate_mono made.isPartOf made.workDir located
    exact (readBytes_eq_ok_iff _ _).mpr ⟨l, runnable,
      locate_mono written.isPartOf written.workDir located, kept l _ (made.kept l _ found)⟩

/-- A new file lies at its name under the directory, empty unless there was a file already, and only
directories on the way to it are made besides. Just the names that are blank, absolute or go up are
refused, and then nothing has changed. -/
theorem createFile_places (dir : Path) (name : String) (d : Disk) :
    (∀ p d', createFile dir name d = (.ok p, d') → Created dir name d p d') ∧
    (IsRefused name ↔ ∃ r, createFile dir name d = (.error (.refused r), d)) :=
  ⟨fun _ _ => .of_done, createFile_of_refused dir, fun ⟨r, failed⟩ => isRefused_of_createFile r failed⟩

/-- A directory by the name of a link, with a file in it. -/
def shelved : Disk where
  entries := [(["p"], .directory), (["p", "a"], .file "kept".toUTF8 true), (["l"], .link ⟨"p"⟩)]
  workDir := []

/-- A file is made through the link, below a directory that is made on its way. A file that is there
keeps its content, and a name that goes up behind a backslash is refused. -/
theorem shelved_created :
    (∃ d', createFile ⟨"l/"⟩ ".//b/...\\c" shelved = (.ok ⟨"l/.//b/...\\c"⟩, d') ∧
      Created ⟨"l/"⟩ ".//b/...\\c" shelved ⟨"l/.//b/...\\c"⟩ d' ∧
      d'.readBytes ⟨"p/b/...\\c"⟩ = .ok .empty) ∧
    (∃ d', createFile ⟨"l"⟩ "a" shelved = (.ok ⟨"l/a"⟩, d') ∧
      d'.readBytes ⟨"l/a"⟩ = .ok "kept".toUTF8) ∧
    ∃ r, createFile ⟨"l"⟩ "b\\../c" shelved = (.error (.refused r), shelved) := by
  obtain ⟨created, -⟩ := createFile_places ⟨"l/"⟩ ".//b/...\\c" shelved
  obtain ⟨again, -⟩ := createFile_places ⟨"l"⟩ "a" shelved
  obtain ⟨-, refused⟩ := createFile_places ⟨"l"⟩ "b\\../c" shelved
  obtain ⟨p, made⟩ := exists_eq_ok_of_isOk (createFile ⟨"l/"⟩ ".//b/...\\c") shelved (by decide +kernel)
  obtain ⟨q, kept⟩ := exists_eq_ok_of_isOk (createFile ⟨"l"⟩ "a") shelved (by decide +kernel)
  obtain ⟨-, -, rfl, -⟩ := createFile_eq_ok _ _ made
  obtain ⟨-, -, rfl, -⟩ := createFile_eq_ok _ _ kept
  refine ⟨⟨_, made, created _ _ made, by decide +kernel⟩, ⟨_, kept, ?_⟩, refused.mp ?_⟩
  · exact (again _ _ kept).read _ (by decide +kernel)
  · exact .up ['b', '\\'] ['/', 'c'] (by decide) (.inr ⟨_, rfl, .inr rfl⟩) (.inr ⟨_, rfl, .inl rfl⟩)

end Disk

end Workbench
