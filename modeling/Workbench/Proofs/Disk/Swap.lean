import Workbench.Proofs.Disk.Replace
import Workbench.Proofs.Disk.Task

/-! Replacing a file whose temporary sibling is no link. The temporary file lies in the directory of
the file and takes its place there, and nothing else in the tree changes. -/
namespace Workbench

open Workbench.Path (temporaryName)

namespace Disk

variable {d d' : Disk} {p : Path} {dir : Location} {name : String}

theorem putIn_putIn (l : Location) (e e' : Entry) (entries : List (Location × Entry)) :
    putIn l e' (putIn l e entries) = putIn l e' entries := by
  induction entries with
  | nil => simp [putIn]
  | cons listed rest ih =>
    by_cases same : listed.1 = l
    · simp [putIn, same]
    · simp [putIn, same, ih]

theorem put_put (l : Location) (e e' : Entry) : (d.put l e).put l e' = d.put l e' := by
  simp [put, putIn_putIn]

/-- A path to an entry that is no link leads to the entry, or to its free name. -/
theorem spot_of_leads (follow : Bool) (clean : p.hasNul = false) (nonempty : p.text ≠ "")
    (level : p.endsInSlash = false) (front : List String) (names : p.names = front ++ [name])
    (here : name ≠ ".") (up : name ≠ "..") (links : Nat) (within : links ≤ linkLimit)
    (leads : d.Leads (d.startOf p) front links dir) (directory : d.get? dir = some .directory)
    (unlinked : ∀ target, d.get? (dir ++ [name]) ≠ some (.link target)) :
    d.spot follow p = if nameLimit < name.utf8ByteSize then .error .nameTooLong
      else .ok (if (d.get? (dir ++ [name])).isSome then .taken (dir ++ [name])
        else .free dir name) := by
  rw [spot, if_neg (by simp [clean]), if_neg nonempty, Path.steps, if_neg (by simp [level]), names,
    trace_append follow linkLimit _ front links dir leads within [name] (.inr (.inl (by simp)))]
  by_cases long : nameLimit < name.utf8ByteSize
  · cases linkLimit - links <;> simp [trace, traceWith, directory, here, up, long]
  · cases found : d.get? (dir ++ [name]) with
    | none => cases linkLimit - links <;> simp [trace, traceWith, directory, here, up, long, found]
    | some e =>
      cases e with
      | link target => exact absurd found (unlinked target)
      | _ => cases linkLimit - links <;> simp [trace, traceWith, directory, here, up, long, found]

/-- A file is made under a free name. -/
theorem openForWriting_of_free (truncate : Bool) (level : p.endsInSlash = false)
    (spotted : d.parentSpot p = .ok (dir, some name)) (free : d.get? (dir ++ [name]) = none) :
    d.openForWriting truncate p =
      .ok (dir ++ [name], d.put (dir ++ [name]) (.file .empty false)) := by
  obtain ⟨clean, nonempty, directory, ⟨here, up, short⟩, front, names, links, within, leads⟩ :=
    (parentSpot_eq_ok_iff dir name).mp spotted
  have spot : d.spot true p = .ok (.free dir name) := by
    rw [spot_of_leads true clean nonempty level front names here up links within leads directory
      (by simp [free]), if_neg (Nat.not_lt.mpr short), free]
    rfl
  rw [openForWriting, if_neg (by simp [level]), spot]
  rfl

theorem temporaryName_ne_dots (name : String) :
    temporaryName name ≠ "." ∧ temporaryName name ≠ ".." := by
  constructor <;>
  · intro same
    have lengths := congrArg (fun s : String => s.toList.length) same
    simp [Path.temporaryName_toList] at lengths

theorem isName_temporaryName (named : IsName name)
    (short : (temporaryName name).utf8ByteSize ≤ nameLimit) : IsName (temporaryName name) := by
  obtain ⟨here, up⟩ := temporaryName_ne_dots name
  refine ⟨Path.temporaryName_ne_empty name, here, up, ?_, ?_, short⟩
  · simp [Path.temporaryName_toList, named.no_slash]
  · simpa [Path.temporaryName_toList] using named.no_nul

/-- Beside a file that a path names its temporary sibling is named, if its name is not too long. -/
theorem parentSpot_temporary (spotted : d.parentSpot p = .ok (dir, some name))
    (short : (temporaryName name).utf8ByteSize ≤ nameLimit) :
    d.parentSpot p.temporary = .ok (dir, some (temporaryName name)) := by
  have named := isName_of_parentSpot spotted
  obtain ⟨clean, -, directory, ⟨here, up, -⟩, front, names, links, within, leads⟩ :=
    (parentSpot_eq_ok_iff dir name).mp spotted
  have beside := Path.beside_temporary names here up named.no_slash
  obtain ⟨above, dots, rfl, still, names'⟩ := beside.names
  obtain ⟨here', up'⟩ := temporaryName_ne_dots name
  refine (parentSpot_eq_ok_iff _ _).mpr ⟨beside.hasNul clean named.no_nul, beside.nonempty,
    directory, ⟨here', up', short⟩, above, names', links, within, ?_⟩
  rw [startOf, beside.isAbsolute]
  exact leads.of_dots_behind _ above dots still

/-- The parent of a file that a path names is there. -/
theorem makeDirs_parent (spotted : d.parentSpot p = .ok (dir, some name)) :
    ∃ parent, p.parent? = some parent ∧ makeDirs parent d = (.ok (), d) := by
  obtain ⟨clean, -, directory, ⟨here, up, -⟩, front, names, links, within, leads⟩ :=
    (parentSpot_eq_ok_iff dir name).mp spotted
  obtain ⟨parent, dots, above, -, rfl, still, nul⟩ := Path.exists_parent names here up
  refine ⟨parent, above, ?_⟩
  by_cases empty : parent.text = ""
  · have lone : parent = ⟨""⟩ := by cases parent; simpa using empty
    subst lone
    rfl
  · refine makeDirs_of_located (l := dir) ((locate_directory_iff directory).mpr
      ⟨nul clean, empty, links, within, ?_⟩) directory
    rw [startOf, Path.parent?_isAbsolute above]
    exact leads.of_dots_behind _ parent.names dots still

theorem runAll_cons (step : WriteStep) (rest : List WriteStep) :
    WriteStep.runAll (step :: rest) d = match step.run d with
      | (.ok (), mid) => WriteStep.runAll rest mid
      | (.error fault, mid) => (.error (.ofFault step.subject fault), mid) := by
  rw [WriteStep.runAll, bind_apply, Task.mapError]
  rcases step.run d with ⟨fault | done, mid⟩ <;> rfl

/-- The directories on the way are made first, and then the file is replaced. -/
theorem replace_of_parent {q : Path} (parent : p.parent? = some q) (bytes : ByteArray) (d : Disk) :
    replace p bytes d = match makeDirs q d with
      | (.ok (), mid) => WriteStep.runAll [.openEmpty p.temporary, .append p.temporary bytes,
          .settle p.temporary, .rename p.temporary p] mid
      | (.error fault, mid) => (.error (.ofFault q fault), mid) := by
  rw [replace, replaceSteps, parent, Option.map_some, Option.toList_some, List.singleton_append,
    runAll_cons]
  rfl

/-- A temporary file that is no link is found in the directory of the file. -/
theorem spot_temporary (follow : Bool) (spotted : d.parentSpot p = .ok (dir, some name))
    (unlinked : ∀ target, d.get? (dir ++ [temporaryName name]) ≠ some (.link target)) :
    d.spot follow p.temporary =
      if nameLimit < (temporaryName name).utf8ByteSize then .error .nameTooLong
      else .ok (if (d.get? (dir ++ [temporaryName name])).isSome then
        .taken (dir ++ [temporaryName name]) else .free dir (temporaryName name)) := by
  have named := isName_of_parentSpot spotted
  obtain ⟨clean, -, directory, ⟨here, up, -⟩, front, names, links, within, leads⟩ :=
    (parentSpot_eq_ok_iff dir name).mp spotted
  have beside := Path.beside_temporary names here up named.no_slash
  obtain ⟨above, dots, rfl, still, names'⟩ := beside.names
  have leads := leads.of_dots_behind _ above dots still
  rw [startOf, ← beside.isAbsolute, ← startOf] at leads
  obtain ⟨here', up'⟩ := temporaryName_ne_dots name
  exact spot_of_leads follow (beside.hasNul clean named.no_nul) beside.nonempty beside.level above
    names' here' up' links within leads directory unlinked

/-- A temporary file that is no link is opened in the directory of the file. -/
theorem openForWriting_temporary (spotted : d.parentSpot p = .ok (dir, some name))
    (unlinked : ∀ target, d.get? (dir ++ [temporaryName name]) ≠ some (.link target)) :
    (∃ fault, d.openForWriting true p.temporary = .error fault) ∨
      (temporaryName name).utf8ByteSize ≤ nameLimit ∧
        d.get? (dir ++ [temporaryName name]) ≠ some .directory ∧
        ∃ runnable, d.openForWriting true p.temporary = .ok (dir ++ [temporaryName name],
          d.put (dir ++ [temporaryName name]) (.file .empty runnable)) := by
  unfold openForWriting
  rw [if_neg (by simp [p.endsInSlash_temporary]), spot_temporary true spotted unlinked]
  by_cases long : nameLimit < (temporaryName name).utf8ByteSize
  · exact .inl ⟨.nameTooLong, by rw [if_pos long]; rfl⟩
  · rw [if_neg long]
    cases found : d.get? (dir ++ [temporaryName name]) with
    | none => exact .inr ⟨Nat.not_lt.mp long, by simp, false, rfl⟩
    | some e =>
      cases e with
      | directory => exact .inl ⟨.isDirectory, by simp [bind, Except.bind, found]⟩
      | link target => exact absurd found (unlinked target)
      | file content runnable =>
        exact .inr ⟨Nat.not_lt.mp long, by simp, runnable, by simp [bind, Except.bind, found]⟩

/-- The temporary name beside a file has no link exactly if the temporary path names none. -/
theorem unlinked_temporary_iff (tree : d.IsTree) (spotted : d.parentSpot p = .ok (dir, some name)) :
    (∀ target, d.get? (dir ++ [temporaryName name]) ≠ some (.link target)) ↔
      ∀ l target, d.locate false p.temporary = .ok l → d.get? l ≠ some (.link target) := by
  constructor
  · intro unlinked l target located
    have spot := spot_temporary false spotted unlinked
    unfold locate at located
    rw [spot] at located
    split at located
    · cases located
    · cases found : d.get? (dir ++ [temporaryName name]) with
      | none => simp [found, bind, Except.bind] at located
      | some e =>
        simp only [found, Option.isSome_some, if_true, bind, Except.bind] at located
        cases located
        exact unlinked target
  · intro unlinked target found
    have named := tree.isName dir (temporaryName name) (by simp [found])
    have located := locate_of_parentSpot false dir _ _ (parentSpot_temporary spotted named.short)
      found (.inr (p.endsInSlash_temporary)) (.inr rfl)
    exact unlinked _ target located found

/-- The disk after a file took the place of another one beside it, which was its temporary file. -/
def swapped (d : Disk) (dir : Location) (name : String) (bytes : ByteArray) (runnable : Bool) : Disk :=
  ((d.put (dir ++ [temporaryName name]) (.file bytes runnable)).erase
    (dir ++ [temporaryName name])).put (dir ++ [name]) (.file bytes runnable)

theorem get?_swapped (bytes : ByteArray) (runnable : Bool) (k : Location) :
    (d.swapped dir name bytes runnable).get? k =
      if k = dir ++ [name] then some (.file bytes runnable)
      else if k = dir ++ [temporaryName name] then none else d.get? k := by
  rw [swapped, get?_put _ _ (by simp), get?_erase _ (by simp), get?_put _ _ (by simp)]
  split
  · rfl
  · split <;> rfl

theorem swapped_storable (storable : d.IsStorable) (directory : d.get? dir = some .directory)
    (named : IsName name) (short : (temporaryName name).utf8ByteSize ≤ nameLimit)
    (solid : d.get? (dir ++ [name]) ≠ some .directory)
    (solid' : d.get? (dir ++ [temporaryName name]) ≠ some .directory) (bytes : ByteArray)
    (runnable : Bool) : (d.swapped dir name bytes runnable).IsStorable := by
  have plain : (Entry.file bytes runnable).IsPlain := fun _ same => by cases same
  have named' := isName_temporaryName named short
  have below : dir ++ [temporaryName name] ≠ [] := by simp
  have apart : dir ++ [name] ≠ dir ++ [temporaryName name] := by
    simpa using (Path.temporaryName_ne name).symm
  have filled := storable.put dir (temporaryName name) (.file bytes runnable) directory named' solid'
    plain
  have filledAt : (d.put (dir ++ [temporaryName name]) (.file bytes runnable)).get?
      (dir ++ [temporaryName name]) = some (.file bytes runnable) := by
    rw [get?_put _ _ below, if_pos rfl]
  have erased := filled.erase _ below fun rest nonempty =>
    filled.none_below _ rest (by simp [filledAt]) nonempty
  refine erased.put dir name _ ?_ named ?_ plain
  · rw [get?_erase _ below, get?_put _ _ below, if_neg (by simp), if_neg (by simp), directory]
  · rw [get?_erase _ below, get?_put _ _ below, if_neg apart, if_neg apart]
    exact solid

/-- The temporary file gets the place of the file, unless a directory is asked for or is there. -/
theorem rename_temporary (source target : Path) (other : String) (apart : other ≠ name)
    (old : d.parentSpot source = .ok (dir, some other)) (level : source.endsInSlash = false)
    (new : d.parentSpot target = .ok (dir, some name)) (content : ByteArray) (runnable : Bool)
    (file : d.get? (dir ++ [other]) = some (.file content runnable)) :
    (∃ fault, d.rename source target = .error fault ∧
        (target.endsInSlash = true ∨ d.get? (dir ++ [name]) = some .directory)) ∨
      d.get? (dir ++ [name]) ≠ some .directory ∧ d.rename source target =
        .ok ((d.erase (dir ++ [other])).put (dir ++ [name]) (.file content runnable)) := by
  have differs : dir ++ [other] ≠ dir ++ [name] := by simpa using apart
  have outside : Location.isWithin (dir ++ [name]) (dir ++ [other]) = false := by
    simpa [Location.isWithin, ← Bool.not_eq_true, List.isPrefixOf_iff_prefix] using apart.symm
  have moved := moveAt_of_solid (dir ++ [other]) (dir ++ [name]) _ file (by simp)
  unfold rename
  simp only [old, new, bind, Except.bind, file, level, differs, outside, if_false,
    Bool.false_or, Bool.false_eq_true]
  by_cases closed : target.endsInSlash = true
  · exact .inl ⟨.notDirectory, by simp [closed], .inl closed⟩
  · rw [if_neg closed]
    cases found : d.get? (dir ++ [name]) with
    | none => exact .inr ⟨by simp, by simp [moved]⟩
    | some e =>
      cases e with
      | directory => exact .inl ⟨.isDirectory, rfl, .inr rfl⟩
      | _ => exact .inr ⟨by simp, by simp [moved]⟩

/-- A file that was opened anew is filled before it is renamed. -/
theorem runAll_of_opened {q : Path} {l : Location} (runnable : Bool)
    (opened : d.openForWriting true q = .ok (l, d.put l (.file .empty runnable))) (p : Path)
    (bytes : ByteArray) :
    Written d q l (d.put l (.file bytes runnable)) ∧
      WriteStep.runAll [.openEmpty q, .append q bytes, .settle q, .rename q p] d =
        WriteStep.runAll [.rename q p] (d.put l (.file bytes runnable)) := by
  have written := written_of_opened true opened
  have below : l ≠ [] := by
    obtain ⟨content, runnable', file⟩ := written.file
    exact ne_nil_of_get? _ file (by simp)
  have appended : WriteStep.appendTo q bytes (d.put l (.file .empty runnable)) =
      .ok (d.put l (.file bytes runnable)) := by
    have file : (d.put l (.file .empty runnable)).get? l = some (.file .empty runnable) := by
      rw [get?_put _ _ below, if_pos rfl]
    simp [WriteStep.appendTo, written.located, bind, Except.bind, pure, Except.pure, appendAt,
      file, put_put]
  refine ⟨put_put (d := d) l (.file .empty runnable) _ ▸ written.refill bytes runnable, ?_⟩
  simp only [runAll_cons, WriteStep.run, Task.change, opened, appended, Except.map]
  rfl

/-- A replacement that does not go through leaves the disk as it was, or the temporary file on it.
One that does leaves the new content in the place of the old. -/
theorem replace_cases (spotted : d.parentSpot p = .ok (dir, some name))
    (unlinked : ∀ target, d.get? (dir ++ [temporaryName name]) ≠ some (.link target))
    (bytes : ByteArray) :
    (∃ e, replace p bytes d = (.error e, d)) ∨
      (temporaryName name).utf8ByteSize ≤ nameLimit ∧
        d.get? (dir ++ [temporaryName name]) ≠ some .directory ∧ ∃ runnable,
          (∃ e, replace p bytes d =
              (.error e, d.put (dir ++ [temporaryName name]) (.file bytes runnable)) ∧
            (p.endsInSlash = true ∨ d.get? (dir ++ [name]) = some .directory)) ∨
          d.get? (dir ++ [name]) ≠ some .directory ∧
            replace p bytes d = (.ok (), d.swapped dir name bytes runnable) := by
  obtain ⟨parent, above, made⟩ := makeDirs_parent spotted
  rw [replace_of_parent above, made]
  dsimp only
  rw [runAll_cons]
  rcases openForWriting_temporary spotted unlinked with
    ⟨fault, failed⟩ | ⟨short, solid, runnable, opened⟩
  · left
    exact ⟨.ofFault p.temporary fault, by
      simp [WriteStep.run, Task.change, failed, Except.map, WriteStep.subject]⟩
  · refine .inr ⟨short, solid, runnable, ?_⟩
    have below : dir ++ [temporaryName name] ≠ [] := by simp
    have apart : dir ++ [name] ≠ dir ++ [temporaryName name] := by
      simpa using (Path.temporaryName_ne name).symm
    have temp := parentSpot_temporary spotted short
    have level := p.endsInSlash_temporary
    obtain ⟨written, last⟩ := runAll_of_opened runnable opened p bytes
    set filled := d.put (dir ++ [temporaryName name]) (.file bytes runnable) with full
    have file : filled.get? (dir ++ [temporaryName name]) = some (.file bytes runnable) := by
      rw [full, get?_put _ _ below, if_pos rfl]
    have renamed := rename_temporary p.temporary p (temporaryName name)
      (Path.temporaryName_ne name)
      (parentSpot_mono written.isPartOf written.workDir _ _ temp) level
      (parentSpot_mono written.isPartOf written.workDir _ _ spotted) bytes runnable file
    rw [written.same _ apart] at renamed
    rw [← runAll_cons, last, runAll_cons, WriteStep.run, Task.change]
    rcases renamed with ⟨fault, failed, why⟩ | ⟨open_, done⟩
    · exact .inl ⟨.ofFault p fault, by rw [failed]; rfl, why⟩
    · exact .inr ⟨open_, by rw [done]; rfl⟩

end Disk

end Workbench
