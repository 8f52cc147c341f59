import Workbench.Proofs.Editor.Act

/-! What holds of an editor after any number of operations that write through no link. The path of
the project leads nowhere but to where it led when it was opened, and the open file lies there, with
the text that is shown. -/
namespace Workbench.Editor

open Disk
open Workbench.Path (temporaryName)

/-- Where the project that is open after an operation lay when it was opened. -/
def Act.home (act : Act) (desk : Desk) (home : Option Location) : Option Location :=
  match act with
  | .openProject p =>
    if p.isThere desk.disk then (desk.disk.locate true p.path).toOption else home
  | _ => home

/-- Nothing is written through a link: the temporary path beside the open file names none, and the
name of a new file meets none. -/
def Act.IsUnlinked (act : Act) (desk : Desk) : Prop :=
  match act with
  | .saveFile _ => ∀ file l target, desk.editor.currentFile.value = some file →
      desk.disk.locate false file.temporary = .ok l → desk.disk.get? l ≠ some (.link target)
  | .createFile dir name => ∀ root (l : Location), desk.editor.root = .ok root →
      desk.editor.contained desk.disk (root.join dir) = .ok l.path → desk.disk.IsUnlinked l name
  | _ => True

/-- The desks that an editor gets to by operations that are allowed, with the place where its
project lay when it was opened. -/
inductive Reached (allowed : Act → Desk → Prop) (disk : Disk) : Desk → Option Location → Prop
  | start (log : Log) : Reached allowed disk { disk, log } none
  | step (act : Act) {desk home} : Reached allowed disk desk home → allowed act desk →
      Reached allowed disk (act.after desk) (act.home desk home)

/-- Nothing is shown, or a file of the project as it is on the disk. -/
def Shows (desk : Desk) (home : Option Location) : Prop :=
  desk.editor.currentFile.value = none ∧ desk.editor.content.value = "" ∨
    ∃ root : Location, ∃ dir name runnable, home = some root ∧ root <+: dir ∧
      desk.editor.currentFile.value = some (Location.path (dir ++ [name])) ∧
      desk.disk.get? (dir ++ [name]) = some (.file desk.editor.content.value.toUTF8 runnable)

/-- What is true of an editor between two operations. -/
structure IsSound (desk : Desk) (home : Option Location) : Prop where
  storable : desk.disk.IsStorable
  opened : (∃ p, desk.editor.project = some p) ↔ ∃ root, home = some root
  directory : ∀ root, home = some root → desk.disk.get? root = some .directory
  located : ∀ p root k, desk.editor.project = some p → home = some root →
    desk.disk.locate true p.path = .ok k → k = root
  shows : Shows desk home

/-- A change of the disk below a directory after which no more paths lead anywhere else. -/
structure Confined (root : Location) (p : Path) (d d' : Disk) : Prop where
  storable : d'.IsStorable
  same : ∀ k, ¬root <+: k → d'.get? k = d.get? k
  directory : d'.get? root = d.get? root
  link : ∀ k target, d'.get? k = some (.link target) → d.get? k = some (.link target)
  led : ∀ k, d'.locate true p = .ok k → d.locate true p = .ok k

variable {desk desk' : Desk} {home : Option Location} {d d' : Disk} {root l : Location} {p : Path}

theorem Confined.refl (storable : d.IsStorable) : Confined root p d d :=
  ⟨storable, fun _ _ => rfl, rfl, fun _ _ => id, fun _ => id⟩

/-- What is removed below a directory is no way to anywhere. -/
theorem Confined.of_removed (storable : d.IsStorable) (below : root <+: l) (apart : l ≠ root)
    (removed : Removed l d d') : Confined root p d d' where
  storable := removed.storable storable
  same k outside := removed.same k fun within => outside (below.trans within)
  directory := removed.same root fun within => apart (within.eq_of_length_le below.length_le)
  link k _ := removed.part k _
  led _ := locate_mono removed.isPartOf removed.workDir.symm

/-- What is added below a directory leaves the ways that lead anywhere. -/
theorem Confined.of_added (storable : d.IsStorable) (directory : d.get? root = some .directory)
    (located : d.locate true p = .ok root) (below : root <+: l) (added : Added l d d') :
    Confined root p d d' where
  storable := added.storable storable
  same k outside := by
    cases was : d.get? k with
    | some e => exact added.kept k e was
    | none =>
      by_contra there
      exact outside (below.trans (added.new k was (Option.isSome_iff_ne_none.mpr there)))
  directory := (added.kept root _ directory).trans directory.symm
  link := added.link
  led k there := by
    -- the project is still found where it was
    rw [locate_mono added.isPartOf added.workDir located] at there
    rw [located, Except.ok.inj there]

/-- A file that takes the place of another below a directory leaves the ways that lead anywhere. -/
theorem Confined.of_swapped (dir : Location) (name : String) (bytes : ByteArray)
    (runnable : Bool) (below : root <+: dir)
    (storable : (d.swapped dir name bytes runnable).IsStorable)
    (part : (d.swapped dir name bytes runnable).IsPartOf d) :
    Confined root p d (d.swapped dir name bytes runnable) where
  storable := storable
  same k outside := by
    rw [get?_swapped, if_neg, if_neg]
    · rintro rfl
      exact outside (below.trans (List.prefix_append _ _))
    · rintro rfl
      exact outside (below.trans (List.prefix_append _ _))
  directory := by
    have short : root.length ≤ dir.length := below.length_le
    have apart (other : String) : root ≠ dir ++ [other] := fun same => by
      rw [same, List.length_append, List.length_singleton] at short
      omega
    rw [get?_swapped, if_neg (apart name), if_neg (apart (temporaryName name))]
  link k target found := by
    rw [get?_swapped] at found
    split at found
    · cases found
    · split at found
      · cases found
      · exact found
  led _ := locate_mono part rfl

theorem exists_dir_of_below (below : root <+: l) (apart : l ≠ root) :
    ∃ dir name, l = dir ++ [name] ∧ root <+: dir := by
  obtain ⟨rest, rfl⟩ := below
  obtain ⟨front, name, rfl⟩ := (List.eq_nil_or_concat' rest).resolve_left
    fun empty => apart (by simp [empty])
  exact ⟨root ++ front, name, by simp, List.prefix_append _ _⟩

/-- The disk is as it was, or has changed where the open project lies. -/
def Keeps (desk desk' : Desk) (home : Option Location) : Prop :=
  desk'.disk = desk.disk ∨ ∃ p root, desk.editor.project = some p ∧ home = some root ∧
    Confined root p.path desk.disk desk'.disk

namespace IsSound

variable (sound : IsSound desk home)
include sound

theorem of_alike (alike : Alike desk desk') (same : desk'.disk = desk.disk) :
    IsSound desk' home where
  storable := same ▸ sound.storable
  opened := alike.project ▸ sound.opened
  directory := same ▸ sound.directory
  located := alike.project ▸ same ▸ sound.located
  shows := by
    rw [Shows, alike.file, alike.text, same]
    exact sound.shows

theorem of_confined (project : Project) (root : Location)
    (opened : desk.editor.project = some project) (place : home = some root)
    (still : desk'.editor.project = desk.editor.project)
    (confined : Confined root project.path desk.disk desk'.disk) (shows : Shows desk' home) :
    IsSound desk' home where
  storable := confined.storable
  opened := still ▸ sound.opened
  directory r same := by
    rw [place] at same
    cases same
    rw [confined.directory, sound.directory root place]
  located p r k opened' same there := by
    rw [still, opened] at opened'
    cases opened'
    rw [place] at same
    cases same
    exact sound.located project root k opened place (confined.led k there)
  shows := shows

/-- A path of the project leads to or below where the project lay when it was opened. -/
theorem of_contained (target canonical : Path)
    (contained : desk.editor.contained desk.disk target = .ok canonical) :
    ∃ project, ∃ root l : Location, ∃ entry, desk.editor.project = some project ∧
      home = some root ∧ desk.disk.locate true project.path = .ok root ∧
      desk.editor.canonicalRoot desk.disk = .ok root.path ∧ root <+: l ∧ canonical = l.path ∧
      desk.disk.get? l = some entry ∧ entry.IsPlain := by
  obtain ⟨project, root, l, entry, opened, located, top, -, below, same, found, plain⟩ :=
    contained_eq_ok sound.storable.toIsTree target canonical contained
  obtain ⟨root', place⟩ := sound.opened.mp ⟨project, opened⟩
  have here := sound.located project root' root opened place located
  subst here
  exact ⟨project, root, l, entry, opened, place, located, top, below, same, found, plain⟩

/-- A file that is opened is shown as it is on the disk. -/
theorem openFile (file : Path) : IsSound (Editor.openFile file desk).2 home ∧
    (Editor.openFile file desk).2.disk = desk.disk := by
  rcases openFile_cases file desk with same | ⟨p, text, contained, read, shown⟩
  · rw [same]
    exact ⟨sound, rfl⟩
  · obtain ⟨project, root, l, entry, opened, place, -, -, below, rfl, found, plain⟩ :=
      sound.of_contained file p contained
    obtain ⟨k, runnable, located, content⟩ :=
      (readBytes_eq_ok_iff _ _).mp ((readText_eq_ok_iff _ _).mp read)
    rw [locate_path sound.storable.toIsTree l entry found plain] at located
    cases located
    have apart : l ≠ root := by
      rintro rfl
      rw [sound.directory _ place] at content
      cases content
    obtain ⟨dir, name, rfl, above⟩ := exists_dir_of_below below apart
    rw [shown]
    refine ⟨sound.of_confined project root opened place rfl (.refl sound.storable) ?_, rfl⟩
    exact .inr ⟨root, dir, name, runnable, place, above, rfl, content⟩

/-- A file that is saved is on the disk with the text that is shown. -/
theorem saveFile (text : String) (unlinked : (Act.saveFile text).IsUnlinked desk) :
    IsSound (Editor.saveFile text desk).2 home ∧ Keeps desk (Editor.saveFile text desk).2 home := by
  rcases saveFile_cases text desk with ⟨-, same⟩ | ⟨file, shown, disk, result⟩
  · rw [same]
    exact ⟨sound, .inl rfl⟩
  · rcases sound.shows with ⟨closed, -⟩ | ⟨root, dir, name, runnable, place, above, shown', found⟩
    · simp [closed] at shown
    · rw [shown] at shown'
      cases shown'
      have free := (unlinked_temporary_iff sound.storable.toIsTree
        (parentSpot_path sound.storable.toIsTree (by simp [found]))).mpr
          fun l target => unlinked _ l target shown
      rw [replaceText] at disk result
      rcases replace_path sound.storable _ runnable found free text.toUTF8 with
        ⟨e, failed⟩ | ⟨runnable', done, storable, part⟩
      · rw [failed] at disk result
        rcases result with ⟨-, alike⟩ | ⟨ok, -⟩
        · exact ⟨sound.of_alike alike disk, .inl disk⟩
        · cases ok
      · rw [done] at disk result
        rcases result with ⟨⟨e, error⟩, -⟩ | ⟨-, still, stays, held⟩
        · cases error
        · obtain ⟨project, opened⟩ := sound.opened.mpr ⟨root, place⟩
          have confined : Confined root project.path desk.disk _ :=
            .of_swapped dir name text.toUTF8 runnable' above storable part
          dsimp only at disk
          rw [← disk] at confined
          refine ⟨sound.of_confined project root opened place still confined ?_,
            .inr ⟨project, root, opened, place, confined⟩⟩
          refine .inr ⟨root, dir, name, runnable', place, above, stays, ?_⟩
          rw [disk, get?_swapped, if_pos rfl, held]

/-- A file that is made does not change what the open one holds. -/
theorem createFile (dir : Path) (name : String)
    (unlinked : (Act.createFile dir name).IsUnlinked desk) :
    IsSound (Editor.createFile dir name desk).2 home ∧
      Keeps desk (Editor.createFile dir name desk).2 home := by
  obtain ⟨alike, same | ⟨top, p, rooted, contained, disk⟩⟩ := createFile_cases dir name desk
  · exact ⟨sound.of_alike alike same, .inl same⟩
  · obtain ⟨project, root, l, entry, opened, place, located, -, below, rfl, found, plain⟩ :=
      sound.of_contained _ p contained
    have added := createFile_added sound.storable entry found plain
      (unlinked top l rooted contained)
    rw [← disk] at added
    have confined := Confined.of_added sound.storable (sound.directory root place) located below
      added
    refine ⟨sound.of_confined project root opened place alike.project confined ?_,
      .inr ⟨project, root, opened, place, confined⟩⟩
    rw [Shows, alike.file, alike.text]
    rcases sound.shows with closed | ⟨root, dir, name, runnable, place, above, shown, found⟩
    · exact .inl closed
    · exact .inr ⟨root, dir, name, runnable, place, above, shown, added.kept _ _ found⟩

/-- A project is opened where it lies now, and no file of it. -/
theorem openProject (p : Project) :
    IsSound (Editor.openProject p desk).2 ((Act.openProject p).home desk home) ∧
      (Editor.openProject p desk).2.disk = desk.disk := by
  rcases openProject_cases p desk with ⟨missing, same⟩ | ⟨there, disk, opened, closed, empty⟩
  · simp only [Act.home, missing, same]
    exact ⟨sound, trivial⟩
  · obtain ⟨root, located, directory⟩ := (isDir_iff _).mp there
    have place : (Act.openProject p).home desk home = some root := by
      simp [Act.home, there, located, Except.toOption]
    rw [place]
    refine ⟨⟨disk ▸ sound.storable, by simp [opened], ?_, ?_, .inl ⟨closed, empty⟩⟩, disk⟩
    · rintro r ⟨⟩
      rw [disk, directory]
    · rintro q r k opened' ⟨⟩ there
      rw [opened] at opened'
      cases opened'
      rw [disk, located] at there
      exact (Except.ok.inj there).symm

/-- What is deleted of the project is gone, and the open file is closed if it went with it. -/
theorem delete_contained (target p : Path)
    (contained : desk.editor.contained desk.disk target = .ok p)
    (part : desk.editor.canonicalRoot desk.disk ≠ .ok p) :
    ∃ project, ∃ root l : Location, desk.editor.project = some project ∧ home = some root ∧
      root <+: l ∧ l ≠ root ∧ p = l.path ∧ l.IsProper ∧
      Removed l desk.disk (Editor.delete target desk).2.disk ∧
      (∀ k, l <+: k → (Editor.delete target desk).2.disk.get? k = none) ∧
      (Editor.delete target desk).2.editor.project = desk.editor.project ∧
      if desk.editor.currentFile.value.any (·.startsWith p) = true then
        (Editor.delete target desk).2.editor.currentFile.value = none ∧
          (Editor.delete target desk).2.editor.content.value = ""
      else Alike desk (Editor.delete target desk).2 := by
  obtain ⟨project, root, l, entry, opened, place, -, top, below, rfl, found, plain⟩ :=
    sound.of_contained target p contained
  have apart : l ≠ root := by
    rintro rfl
    exact part top
  have inner : l ≠ [] := by
    rintro rfl
    exact apart (List.prefix_nil.mp below).symm
  obtain ⟨d', done, removed, gone⟩ := deletePath_path sound.storable entry inner found plain
  rcases delete_cases target desk with ⟨-, whole⟩ | ⟨q, contained', -, disk, still, result⟩
  · exact absurd (whole _ contained) part
  · rw [contained] at contained'
    cases contained'
    rw [done] at disk result
    dsimp only at disk
    rcases result with ⟨⟨e, error⟩, -⟩ | ⟨-, closes⟩
    · cases error
    · rw [← disk] at removed gone
      exact ⟨project, root, l, opened, place, below, apart, rfl,
        sound.storable.isProper l (by simp [found]), removed, gone, still, closes⟩

/-- What is deleted takes the open file along, or leaves it. -/
theorem delete (target : Path) : IsSound (Editor.delete target desk).2 home ∧
    Keeps desk (Editor.delete target desk).2 home := by
  rcases delete_cases target desk with ⟨same, -⟩ | ⟨p, contained, part, -⟩
  · rw [same]
    exact ⟨sound, .inl rfl⟩
  · obtain ⟨project, root, l, opened, place, below, apart, rfl, proper, removed, gone, still,
      closes⟩ := sound.delete_contained target p contained part
    have confined : Confined root project.path desk.disk _ :=
      .of_removed sound.storable below apart removed
    refine ⟨sound.of_confined project root opened place still confined ?_,
      .inr ⟨project, root, opened, place, confined⟩⟩
    split at closes
    next => exact .inl closes
    next stays =>
      rw [Shows, closes.file, closes.text]
      rcases sound.shows with closed | ⟨root, dir, name, runnable, place, above, shown, found⟩
      · exact .inl closed
      · refine .inr ⟨root, dir, name, runnable, place, above, shown, ?_⟩
        rw [shown, Option.any_some, Location.path_startsWith_iff _ l
          (sound.storable.isProper _ (by simp [found])) proper] at stays
        rw [removed.same _ stays, found]

/-- Every operation keeps what is true of an editor, and changes the disk in its project only. -/
theorem step (act : Act) (unlinked : act.IsUnlinked desk) :
    IsSound (act.after desk) (act.home desk home) ∧ Keeps desk (act.after desk) home := by
  cases act with
  | openProject p =>
    obtain ⟨sound, same⟩ := sound.openProject p
    exact ⟨sound, .inl same⟩
  | refresh =>
    obtain ⟨alike, same⟩ := refresh_alike desk
    exact ⟨sound.of_alike alike same, .inl same⟩
  | openFile file =>
    obtain ⟨sound, same⟩ := sound.openFile file
    exact ⟨sound, .inl same⟩
  | saveFile text => exact sound.saveFile text unlinked
  | createFile dir name => exact sound.createFile dir name unlinked
  | delete target => exact sound.delete target

end IsSound

theorem Reached.sound (storable : d.IsStorable) (reached : Reached Act.IsUnlinked d desk home) :
    IsSound desk home := by
  induction reached with
  | start log => exact ⟨storable, by simp, by simp, by simp, .inl ⟨rfl, rfl⟩⟩
  | step act _ unlinked ih => exact (ih.step act unlinked).1

end Workbench.Editor
