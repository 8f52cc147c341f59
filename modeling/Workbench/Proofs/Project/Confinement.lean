import Workbench.Proofs.Disk.Atomicity
import Workbench.Proofs.Project.Scaffold

/-! What the creation of a project changes. The starter files go where the path of the project leads
once the missing directories on its way are made, and if this is a new place there is nothing in it
that they could take the place of. What else is changed belongs to the registry. -/
namespace Workbench

open Disk

namespace Path

/-- A name without slashes is a single component. -/
theorem components_of_plain {name : String} (nonempty : name ≠ "") (here : name ≠ ".")
    (up : name ≠ "..") (slashless : '/' ∉ name.toList) :
    (Path.mk name).components = [.name name] := by
  have segments : segments ⟨name⟩ = [name.toList] :=
    Text.splitAt_of_notMem '/' name.toList slashless
  have solid : name.toList ≠ [] := by simpa using nonempty
  have level (dots : String) (other : name ≠ dots) : name.toList ≠ dots.toList :=
    fun same => other (String.toList_injective same)
  have relative : isAbsolute ⟨name⟩ = false := by
    obtain ⟨c, rest, same⟩ := List.exists_cons_of_ne_nil solid
    rw [same, List.mem_cons, not_or] at slashless
    simpa [isAbsolute, same] using slashless.1 ∘ Eq.symm
  have here := level "." here
  have up := level ".." up
  have anchored : anchor ⟨name⟩ = .none := by simpa [anchor, relative, segments] using here
  simp [components, body, anchored, segments, Anchor.components, Component.ofSegment?, isVoid,
    solid, show name.toList ≠ ['.'] from here, show name.toList ≠ ['.', '.'] from up]

/-- The path of a child has one component more, whatever its parent is. -/
theorem components_child_of_plain (p : Path) {name : String} (nonempty : name ≠ "")
    (here : name ≠ ".") (up : name ≠ "..") (slashless : '/' ∉ name.toList) :
    (p.child name).components = p.components ++ [.name name] := by
  have own := components_of_plain nonempty here up slashless
  have relative : isAbsolute ⟨name⟩ = false := by
    by_contra absolute
    rw [Bool.not_eq_false, isAbsolute, beq_iff_eq] at absolute
    exact slashless (List.mem_of_head? absolute)
  by_cases empty : p.text = ""
  · -- seen from the empty path a name is just itself
    have same : p.child name = ⟨name⟩ := by simp [child, join, relative, empty]
    have bare : p.components = [] := by
      obtain ⟨text⟩ := p
      obtain rfl : text = "" := empty
      rfl
    rw [same, own, bare, List.nil_append]
  · rw [child, components_join empty relative, own]
    rfl

end Path

namespace Disk

variable {d d' : Disk} {p : Path} {k : Location}

/-- A directory that is missing and that can be made on the way to a path. -/
def OnWay (d : Disk) (p : Path) (k : Location) : Prop :=
  d.get? k = none ∧ ∃ d', Made p d d' ∧ d'.get? k = some .directory

/-- Once the directories that are missing on its way are made, the path leads to what was there
before. -/
def TakesOver (d : Disk) (p : Path) : Prop :=
  ∃ d' l, makeDirs p d = (.ok (), d') ∧ d'.locate true p = .ok l ∧ d.get? l ≠ none

theorem Made.onWay (made : Made p d d') (k : Location) :
    d'.get? k = d.get? k ∨ d.OnWay p k ∧ d'.get? k = some .directory := by
  cases found : d.get? k with
  | some e => exact .inl (made.kept k e found)
  | none =>
    by_cases there : (d'.get? k).isSome
    · have directory := (made.made k found there).1
      exact .inr ⟨⟨found, d', made, directory⟩, directory⟩
    · exact .inl (by simpa using there)

/-- A replacement, whether it goes through or not, changes the file and its temporary file, and makes
directories on the way. -/
theorem get?_replace (storable : d.IsStorable) (unlinked : d.IsUnlinkedBeside p) (bytes : ByteArray)
    (apart : d.place? p ≠ some k) (apart' : d.sibling? p ≠ some k) :
    (replace p bytes d).2.get? k = d.get? k ∨
      d.OnWay p k ∧ (replace p bytes d).2.get? k = some .directory := by
  obtain ⟨-, -, -, failed, done⟩ := replace_atomic storable p bytes unlinked
  -- what was made on the way is all that the locations apart from the two files can show
  have spared : ∃ mid, Made p d mid ∧ (replace p bytes d).2.get? k = mid.get? k := by
    rcases result : replace p bytes d with ⟨e | ⟨⟩, d'⟩
    · obtain ⟨mid, made, same⟩ := (failed e d' result).spared
      exact ⟨mid, made, same k apart'⟩
    · obtain ⟨mid, made, same⟩ := (done d' result).spared
      exact ⟨mid, made, same k apart apart'⟩
  obtain ⟨mid, made, same⟩ := spared
  rw [same]
  exact made.onWay k

end Disk

namespace Registry

variable {r : Registry} {d : Disk} {root : Path} {title : String} {k : Location}

/-- Making a project where nothing was adds directories on the way to it and what lies at or below
its directory. -/
theorem get?_scaffold (storable : d.IsStorable) (nonempty : root.text ≠ "")
    (single : ¬d.TakesOver root) (title : String) (k : Location) :
    (scaffold root title d).2.get? k = d.get? k ∨
      d.OnWay root k ∧ (scaffold root title d).2.get? k = some .directory ∨
      d.get? k = none ∧ ∃ l, (makeDirs root d).2.locate true root = .ok l ∧ l <+: k := by
  have made := made_of_makeDirs root d
  obtain ⟨grown, cases⟩ := scaffold_cases storable root title nonempty
  rcases result : makeDirs root d with ⟨fault | ⟨⟩, base⟩
  · -- without the directory nothing goes into it
    have same : (scaffold root title d).2 = base := by
      rw [scaffold, bind_apply, makeDirsAt, Task.mapError, result]
    rw [result] at made
    rw [same]
    exact (made.onWay k).imp_right .inl
  · rw [result] at made grown cases
    dsimp only at made grown cases ⊢
    have way := made.onWay k
    rcases cases with same | furnished
    · rw [same]
      exact way.imp_right .inl
    · obtain ⟨l, located, directory⟩ := (isDir_iff root).mp (isDir_of_makeDirs nonempty result)
      have new : d.get? l = none := by
        by_contra old
        exact single ⟨base, l, result, located, old⟩
      have below (rest : Location) : d.get? (l ++ rest) = none := by
        by_cases here : rest = []
        · rw [here, List.append_nil, new]
        · exact storable.none_below l rest (by simp [new]) here
      rcases furnished.same k with same | reached
      · rw [same]
        exact way.imp_right .inl
      · -- nothing was at or below the place, and so no link is
        have within := reached.within (locate_mono furnished.part furnished.workDir located)
          fun rest _ target found => by
            have link := (grown.trans furnished.toExtended).link _ target found
            simp [below] at link
        obtain ⟨rest, rfl⟩ := within
        exact .inr (.inr ⟨below rest, l, located, List.prefix_append l rest⟩)

/-- What creating a project may change at a location, and what is there then. -/
inductive Touches (r : Registry) (root : Path) (title : String) (d : Disk) (k : Location) :
    Option Entry → Prop
  /-- A directory that was missing on the way to the project. -/
  | above : d.OnWay root k → Touches r root title d k (some .directory)
  /-- Something new at or below the directory of the project. -/
  | inside (l : Location) (e : Option Entry) : (makeDirs root d).2.locate true root = .ok l →
      l <+: k → d.get? k = none → Touches r root title d k e
  /-- The file of the registry. -/
  | file (e : Option Entry) : (scaffold root title d).2.place? r.file = some k →
      Touches r root title d k e
  /-- The temporary file of the registry. -/
  | temporary (e : Option Entry) : (scaffold root title d).2.sibling? r.file = some k →
      Touches r root title d k e
  /-- A directory that was missing on the way to the file of the registry. -/
  | toFile : d.get? k = none → (scaffold root title d).2.OnWay r.file k →
      Touches r root title d k (some .directory)

/-- When a new project is established, the registry is written once the project is laid out, if that
went well. -/
theorem establish_snd (r : Registry) (root : Path) (title : String) (now : Int) (d : Disk) :
    (r.establish root title now d).2 = (scaffold root title d).2 ∨
      ∃ bytes, (r.establish root title now d).2 =
        (replace r.file bytes (scaffold root title d).2).2 := by
  rw [establish, bind_apply]
  rcases scaffold root title d with ⟨e | ⟨⟩, mid⟩
  · exact .inl rfl
  · dsimp only
    rw [bind_apply, Task.mapError, Task.ask]
    cases mid.canonical root with
    | error fault => exact .inl rfl
    | ok path =>
      refine .inr ⟨(encode (r.list mid ++ [.make title path now])).toUTF8, ?_⟩
      dsimp only
      rw [append_eq, save, replaceText]
      rcases replace r.file _ mid with ⟨_ | _, _⟩ <;> rfl

/-- No link has the name of the temporary file for the registry, once the project is laid out. -/
def IsUnlinked (r : Registry) (root : Path) (title : String) (d : Disk) : Prop :=
  ∀ t target, (scaffold root title d).2.sibling? r.file = some t → d.get? t ≠ some (.link target)

theorem touches_of_establish (storable : d.IsStorable) (nonempty : root.text ≠ "")
    (single : ¬d.TakesOver root) (unlinked : r.IsUnlinked root title d) (now : Int) (k : Location) :
    (r.establish root title now d).2.get? k = d.get? k ∨
      r.Touches root title d k ((r.establish root title now d).2.get? k) := by
  obtain ⟨grown, cases⟩ := scaffold_cases storable root title nonempty
  have extended : Extended d (scaffold root title d).2 := by
    rcases cases with same | furnished
    · rwa [same]
    · exact grown.trans furnished.toExtended
  have unlinked' : (scaffold root title d).2.IsUnlinkedBeside r.file :=
    fun t target beside found => unlinked t target beside (extended.link t target found)
  -- whatever is not the file of the registry or beside it is as it was left by the project
  have later : (r.establish root title now d).2.get? k = (scaffold root title d).2.get? k ∨
      (scaffold root title d).2.place? r.file = some k ∨
      (scaffold root title d).2.sibling? r.file = some k ∨
      (scaffold root title d).2.OnWay r.file k ∧
        (r.establish root title now d).2.get? k = some .directory := by
    by_cases placed : (scaffold root title d).2.place? r.file = some k
    · exact .inr (.inl placed)
    by_cases beside : (scaffold root title d).2.sibling? r.file = some k
    · exact .inr (.inr (.inl beside))
    rcases establish_snd r root title now d with same | ⟨bytes, same⟩
    · rw [same]
      exact .inl rfl
    · rw [same]
      exact (get?_replace extended.storable unlinked' bytes placed beside).imp_right (.inr ∘ .inr)
  rcases later with same | placed | beside | ⟨way, directory⟩
  · rw [same]
    rcases get?_scaffold storable nonempty single title k with
      old | ⟨above, directory⟩ | ⟨new, l, located, within⟩
    · exact .inl old
    · rw [directory]
      exact .inr (.above above)
    · exact .inr (.inside l _ located within new)
  · exact .inr (.file _ placed)
  · exact .inr (.temporary _ beside)
  · have new : d.get? k = none := by
      by_contra old
      obtain ⟨e, found⟩ := Option.ne_none_iff_exists'.mp old
      obtain ⟨e', found', -⟩ := extended.part k e found
      simp [way.1] at found'
    rw [directory]
    exact .inr (.toFile new way)

/-- Nothing that is there is changed but for the file of the registry and its temporary file. -/
theorem Touches.old {e : Entry} {e' : Option Entry} (touches : r.Touches root title d k e')
    (found : d.get? k = some e) :
    (scaffold root title d).2.place? r.file = some k ∨
      (scaffold root title d).2.sibling? r.file = some k := by
  cases touches with
  | above way => simp [way.1] at found
  | inside _ _ _ _ new => simp [new] at found
  | file _ placed => exact .inl placed
  | temporary _ beside => exact .inr beside
  | toFile new => simp [new] at found

/-- A title that is not refused is a name of its own. -/
theorem title_ne (title : String) (open_ : refusal? title = none) : title ≠ "." ∧ title ≠ ".." := by
  constructor
  · rintro rfl
    revert open_
    decide
  · rintro rfl
    revert open_
    decide

/-- The creation of a project stays within its directory. A title that is refused and a path where
something is leave the disk as it was. Any other title is the last component of the path, after those
of the workspace, and only these things are changed: directories that are missing on the way to the
path are made, new entries are made at or below the place that it leads to then, the file of the
registry and its temporary file are written, and directories are made on the way to them. Whatever
was there before stays as it is, but for these two files. All this is so unless the path leads to an
old place once the missing directories are made, and no path does but one that goes up through a
directory that is missing. -/
theorem create_confined (r : Registry) (storable : d.IsStorable) (workspace : Path) (title : String)
    (now : Int) :
    let root := workspace.child title
    let after := (r.create workspace title now d).2
    (∀ why, refusal? title = some why →
      r.create workspace title now d = (.error (.refused why), d)) ∧
    (refusal? title = none → d.isThere root = true →
      r.create workspace title now d = (.error (.refused (.projectThere root)), d)) ∧
    (refusal? title = none → root.components = workspace.components ++ [.name title]) ∧
    (refusal? title = none → d.isThere root = false → d.TakesOver root →
      ".." ∈ root.names ∧ ∀ dir name, d.parentSpot root ≠ .ok (dir, some name)) ∧
    (¬d.TakesOver root → r.IsUnlinked root title d →
      (∀ k, after.get? k = d.get? k ∨
        refusal? title = none ∧ d.isThere root = false ∧ r.Touches root title d k (after.get? k)) ∧
      ∀ k e, d.get? k = some e → after.get? k = some e ∨
        (scaffold root title d).2.place? r.file = some k ∨
        (scaffold root title d).2.sibling? r.file = some k) := by
  intro root after
  refine ⟨fun why refused => ?_, fun open_ there => ?_, fun open_ => ?_, fun open_ absent takes => ?_,
    fun single unlinked => ?_⟩
  · simp only [create, refused]
    rfl
  · simp only [create, open_]
    rw [Task.look_bind, there]
    rfl
  · obtain ⟨here, up⟩ := title_ne title open_
    exact workspace.components_child_of_plain (name_ne title open_) here up
      (notMem_of_refusal? title open_)
  · obtain ⟨mid, l, made, located, old⟩ := takes
    exact up_of_taken storable (Path.text_join_ne (name_ne title open_)) absent made located old
  · have touched (k : Location) : after.get? k = d.get? k ∨
        refusal? title = none ∧ d.isThere root = false ∧
          r.Touches root title d k (after.get? k) := by
      rcases r.create_cases workspace title now d with ⟨e, same⟩ | ⟨open_, absent, whole⟩
      · exact .inl (by rw [show after = d from congrArg Prod.snd same])
      · rw [show after = (r.establish root title now d).2 from congrArg Prod.snd whole]
        exact (touches_of_establish storable (Path.text_join_ne (name_ne title open_)) single
          unlinked now k).imp_right fun touches => ⟨open_, absent, touches⟩
    -- an old entry is neither a directory that was missing nor something new
    refine ⟨touched, fun k e found => ?_⟩
    rcases touched k with same | ⟨-, -, touches⟩
    · exact .inl (by rw [same, found])
    · exact .inr (touches.old found)

/-- A project in a workspace that is there, registered in a directory that is not. -/
theorem bare_confined : bare.IsStorable ∧ refusal? "n" = none ∧
    ¬bare.TakesOver ((Path.mk "/work").child "n") ∧
    unwritten.IsUnlinked ((Path.mk "/work").child "n") "n" bare ∧
    ((Path.mk "/work").child "n").components = [.root, .name "work", .name "n"] ∧
    ∀ k e, bare.get? k = some e → (unwritten.create ⟨"/work"⟩ "n" 5 bare).2.get? k = some e ∨
      (scaffold ((Path.mk "/work").child "n") "n" bare).2.place? unwritten.file = some k ∨
      (scaffold ((Path.mk "/work").child "n") "n" bare).2.sibling? unwritten.file = some k := by
  have open_ : refusal? "n" = none := by decide
  have single : ¬bare.TakesOver ((Path.mk "/work").child "n") := by
    rintro ⟨mid, l, made, located, old⟩
    have up := (up_of_taken bare_storable (by decide) (by decide) made located old).1
    revert up
    decide
  have unlinked : unwritten.IsUnlinked ((Path.mk "/work").child "n") "n" bare :=
    fun t target _ => bare_linkless t target
  obtain ⟨-, -, child, -, confined⟩ := create_confined unwritten bare_storable ⟨"/work"⟩ "n" 5
  exact ⟨bare_storable, open_, single, unlinked, child open_, (confined single unlinked).2⟩

/-- A project with a file of its user's. -/
def lived : Disk where
  entries := [(["a"], .directory), (["a", "site"], .directory),
    (["a", "site", "README.md"], .file "mine".toUTF8 false)]
  workDir := []

/-- A new project by a path that goes up through a missing directory takes the place of the old one,
with its files. -/
theorem site_overwritten : lived.isThere ((Path.mk "/a/m/..").child "site") = false ∧
    (unwritten.create ⟨"/a/m/.."⟩ "site" 6 lived).1 = .ok (.make "site" ⟨"/a/site"⟩ 6) ∧
    lived.get? ["a", "site", "README.md"] = some (.file "mine".toUTF8 false) ∧
    (unwritten.create ⟨"/a/m/.."⟩ "site" 6 lived).2.get? ["a", "site", "README.md"] ≠
      some (.file "mine".toUTF8 false) := by
  decide +kernel

end Registry

end Workbench
