import Workbench.Proofs.Editor.Answer
import Workbench.Proofs.Editor.Run

/-! The outline that an editor shows is that of the disk. It is made anew when a file was made or
something was deleted, and every other operation must leave it as it is. -/
namespace Workbench.Editor

open Disk
open Workbench.Path (temporaryName)

/-- An operation that leaves nothing on the disk that it does not show: a file is saved through no
link, and a file that cannot be made leaves no directories behind. -/
def Act.IsWhole (act : Act) (desk : Desk) : Prop :=
  match act with
  | .saveFile text => (Act.saveFile text).IsUnlinked desk
  | .createFile dir name => ∀ e, (Act.createFile dir name).answer desk = .error e →
      ((Act.createFile dir name).after desk).disk = desk.disk
  | _ => True

/-- The outline that is shown is that of the disk. The open file is a file there, and the project
is a directory or gone. -/
structure IsCurrent (desk : Desk) : Prop where
  storable : desk.disk.IsStorable
  file : ∀ p, desk.editor.currentFile.value = some p → ∃ dir name content runnable,
    p = Location.path (dir ++ [name]) ∧
      desk.disk.get? (dir ++ [name]) = some (.file content runnable)
  root : ∀ p, desk.editor.project = some p → desk.disk.IsRoot p.path
  outline : ∀ p, desk.editor.project = some p →
    desk.disk.outline p.path = .ok desk.editor.tree.value

variable {desk : Desk} {home : Option Location} {d : Disk}

namespace IsCurrent

variable (current : IsCurrent desk)
include current

/-- A project is opened with its outline. -/
theorem openProject (p : Project) : IsCurrent ((Act.openProject p).after desk) := by
  rcases openProject_answer p desk with ⟨-, failed⟩ | ⟨there, tree, outline, done⟩
  · simpa only [Act.after, failed] using current
  · simp only [Act.after, done]
    constructor
    · exact current.storable
    · intro q shown
      cases shown
    · intro q opened _
      cases opened
      exact there
    · intro q opened
      cases opened
      exact outline

theorem refresh : IsCurrent (Act.refresh.after desk) := by
  rcases refresh_answer desk with ⟨e, failed⟩ | ⟨p, tree, opened, outline, done⟩
  · simpa only [Act.after, failed] using current
  · simp only [Act.after, done]
    constructor
    · exact current.storable
    · exact current.file
    · exact current.root
    · intro q opened'
      obtain rfl : p = q := Option.some.inj (opened.symm.trans opened')
      exact outline

/-- The file that is opened is a regular one. -/
theorem openFile (file : Path) : IsCurrent ((Act.openFile file).after desk) := by
  rcases openFile_answer file desk with ⟨e, failed⟩ | ⟨p, text, contained, read, done⟩
  · simpa only [Act.after, failed] using current
  · simp only [Act.after, done]
    obtain ⟨-, -, l, entry, -, -, -, -, -, rfl, found, plain⟩ :=
      contained_eq_ok current.storable.toIsTree file p contained
    obtain ⟨k, runnable, located, content⟩ :=
      (readBytes_eq_ok_iff _ _).mp ((readText_eq_ok_iff _ _).mp read)
    rw [locate_path current.storable.toIsTree l entry found plain] at located
    cases located
    obtain ⟨dir, name, rfl⟩ := (List.eq_nil_or_concat' l).resolve_left
      (ne_nil_of_get? _ content (by simp))
    constructor
    · exact current.storable
    · intro q shown
      cases shown
      exact ⟨dir, name, _, runnable, rfl, content⟩
    · exact current.root
    · exact current.outline

/-- A file that is saved takes the place of the one that was opened, and nothing else is seen to
change. -/
theorem saveFile (text : String) (whole : (Act.saveFile text).IsWhole desk) :
    IsCurrent ((Act.saveFile text).after desk) := by
  rcases saveFile_answer text desk with ⟨-, failed⟩ | ⟨p, shown, result⟩
  · simpa only [Act.after, failed] using current
  · obtain ⟨dir, name, content, runnable, rfl, found⟩ := current.file p shown
    have unlinked := (unlinked_temporary_iff current.storable.toIsTree
      (parentSpot_path current.storable.toIsTree (by simp [found]))).mpr
        fun l target => whole _ l target shown
    rw [replaceText] at result
    rcases replace_path_cases current.storable content runnable found unlinked text.toUTF8 with
      ⟨e, failed⟩ | ⟨solid, runnable', replaced, storable, part⟩
    · -- the disk is as it was
      rw [failed] at result
      rcases result with ⟨e', -, refused⟩ | ⟨ok, -⟩
      · simpa only [Act.after, refused] using current
      · cases ok
    · rw [replaced] at result
      rcases result with ⟨e', error, -⟩ | ⟨-, done⟩
      · cases error
      · have alike := looksLike_swapped content runnable found solid unlinked
          current.storable.toIsTree text.toUTF8 runnable' storable.toIsTree part
        have rooted (q : Project) (opened : desk.editor.project = some q) :
            (desk.disk.swapped dir name text.toUTF8 runnable').IsRoot q.path := by
          apply IsRoot.of_part (current.root q opened) part rfl
          intro l located directory _
          exact ((alike.leads q.path l).mpr ⟨located, directory⟩).2
        simp only [Act.after, done]
        constructor
        · exact storable
        · intro q shown'
          obtain rfl : Location.path (dir ++ [name]) = q :=
            Option.some.inj (shown.symm.trans shown')
          exact ⟨dir, name, text.toUTF8, runnable', rfl, by rw [get?_swapped, if_pos rfl]⟩
        · exact rooted
        · intro q opened
          rw [← current.outline q opened]
          exact alike.outline_eq current.storable.toIsTree storable.toIsTree
            (current.root q opened) (rooted q opened)

/-- A file that is made is shown, and one that is refused has left nothing. -/
theorem createFile (dir : Path) (name : String) (whole : (Act.createFile dir name).IsWhole desk) :
    IsCurrent ((Act.createFile dir name).after desk) := by
  rcases createFile_answer current.storable dir name with
    ⟨e, failed⟩ | ⟨root, p, -, contained, ⟨e, -, refused⟩ | ⟨q, project, tree, opened, -, outline, done⟩⟩
  · simpa only [Act.after, failed] using current
  · have same := whole e (by simp only [Act.answer, refused, Except.map])
    simp only [Act.after, refused] at same ⊢
    rw [same]
    exact current
  · have extended := createFile_extends p name desk.disk current.storable
    obtain ⟨project', top, -, -, opened', located, -⟩ :=
      contained_eq_ok current.storable.toIsTree _ p contained
    obtain rfl : project = project' := Option.some.inj (opened.symm.trans opened')
    simp only [Act.after, done]
    generalize (Disk.createFile p name desk.disk).2 = made at extended outline ⊢
    constructor
    · exact extended.storable
    · intro q shown
      obtain ⟨dir, name, content, runnable, rfl, found⟩ := current.file q shown
      obtain ⟨e, found', content', runnable', rfl⟩ := extended.part _ _ found
      exact ⟨dir, name, content', runnable', rfl, found'⟩
    · intro q opened''
      obtain rfl : project = q := Option.some.inj (opened.symm.trans opened'')
      -- the project was there, and therefore a directory
      obtain ⟨entry, there, -⟩ := locate_plain current.storable.toIsTree _ _ located
      obtain ⟨k, located', directory⟩ := (isDir_iff _).mp
        (current.root project opened ((isThere_iff _).mpr ⟨top, located, by rw [there]; rfl⟩))
      exact isRoot_of_extended extended located' (extended.part.directory k directory)
    · intro q opened''
      obtain rfl : project = q := Option.some.inj (opened.symm.trans opened'')
      exact outline

/-- What is deleted is no longer shown, and the open file is closed if it went along. -/
theorem delete (target : Path) : IsCurrent ((Act.delete target).after desk) := by
  rcases delete_answer current.storable target with ⟨⟨e, failed⟩, -⟩ |
    ⟨project, root, l, d', tree, opened, located, -, led, below, apart, removed, gone, outline, done⟩
  · simpa only [Act.after, failed] using current
  · have still : (desk.editor.closing l.path).project = desk.editor.project := by
      rw [closing]
      split <;> rfl
    obtain ⟨entry, found, -⟩ := locate_plain current.storable.toIsTree _ _ led
    have proper := current.storable.isProper l (by simp [found])
    simp only [Act.after, done]
    constructor
    · exact removed.storable current.storable
    · intro q shown
      change (desk.editor.closing l.path).currentFile.value = some q at shown
      rw [closing] at shown
      split at shown
      · cases shown
      next stays =>
        obtain ⟨dir, name, content, runnable, rfl, file⟩ := current.file q shown
        refine ⟨dir, name, content, runnable, rfl, ?_⟩
        rw [shown, Option.any_some, Location.path_startsWith_iff _ l
          (current.storable.isProper _ (by simp [file])) proper] at stays
        rw [removed.same _ stays, file]
    · intro q opened'
      obtain rfl : project = q := Option.some.inj (opened.symm.trans (still.symm.trans opened'))
      apply IsRoot.of_part (current.root project opened) removed.isPartOf removed.workDir.symm
      intro k located' directory _
      obtain rfl : root = k := Except.ok.inj (located.symm.trans located')
      rw [removed.same root fun within => apart (within.eq_of_length_le below.length_le), directory]
    · intro q opened'
      obtain rfl : project = q := Option.some.inj (opened.symm.trans (still.symm.trans opened'))
      exact outline

/-- Every operation that is whole leaves the outline of the disk shown. -/
theorem step (act : Act) (whole : act.IsWhole desk) : IsCurrent (act.after desk) := by
  cases act with
  | openProject p => exact current.openProject p
  | refresh => exact current.refresh
  | openFile file => exact current.openFile file
  | saveFile text => exact current.saveFile text whole
  | createFile dir name => exact current.createFile dir name whole
  | delete target => exact current.delete target

end IsCurrent

theorem Reached.isCurrent (storable : d.IsStorable) (reached : Reached Act.IsWhole d desk home) :
    IsCurrent desk := by
  induction reached with
  | start log =>
    constructor
    · exact storable
    · intro p shown
      cases shown
    · intro p opened
      cases opened
    · intro p opened
      cases opened
  | step act _ whole ih => exact ih.step act whole

/-- After any operations, refused or not, the outline that is shown is that of the project on the
disk. -/
theorem shows_outline (storable : d.IsStorable) (reached : Reached Act.IsWhole d desk home)
    (p : Project) (opened : desk.editor.project = some p) :
    desk.disk.outline p.path = .ok desk.editor.tree.value :=
  (reached.isCurrent storable).outline p opened

/-- A project without files. -/
def emptyProject : Disk where
  entries := [(["p"], .directory)]
  workDir := []

def empty : Project := .make "p" ⟨"/p"⟩ 0

/-- The desk with the project open. -/
def emptyOpen : Desk := (Editor.openProject empty { disk := emptyProject }).2

theorem outline_empty : emptyProject.outline ⟨"/p"⟩ = .ok [] := by
  have there : emptyProject.isThere ⟨"/p"⟩ = true := by decide +kernel
  have names : emptyProject.readNames ⟨"/p"⟩ = .ok [] := by decide +kernel
  rw [outline, if_pos there, outlineLevels, outlineLevel, names]
  simp [shownIn, Except.mapError, bind, Except.bind, pure, Except.pure]

theorem emptyOpen_eq : emptyOpen = {
    disk := emptyProject
    editor := {
      project := some empty
      tree := ⟨[], 1⟩
      currentFile := ⟨none, 1⟩
      content := ⟨"", 1⟩ } } := by
  rcases openProject_answer empty { disk := emptyProject } with
    ⟨missing, -⟩ | ⟨-, tree, outline, done⟩
  · exact absurd missing (by decide +kernel)
  · rw [emptyOpen, done]
    obtain rfl : [] = tree := Except.ok.inj (outline_empty.symm.trans outline)
    rfl

theorem emptyOpen_storable : emptyOpen.disk.IsStorable := by
  rw [emptyOpen_eq]
  exact .of_listed (by decide) (by decide)

theorem emptyOpen_reached : Reached Act.IsWhole emptyProject emptyOpen (some ["p"]) := by
  have home : (Act.openProject empty).home { disk := emptyProject } none = some ["p"] := by
    decide
  rw [← home]
  exact .step (.openProject empty) (.start {}) trivial

/-- The desk with a file made in the project. -/
def fileMade : Desk := (Act.createFile ⟨""⟩ "b.txt").after emptyOpen

theorem fileMade_whole : (Act.createFile ⟨""⟩ "b.txt").IsWhole emptyOpen := by
  intro e refused
  rcases createFile_answer emptyOpen_storable ⟨""⟩ "b.txt" with ⟨e, failed⟩ |
    ⟨root, p, rooted, contained, ⟨e, missed, -⟩ | ⟨q, project, tree, -, -, -, done⟩⟩
  · rw [Act.after, failed]
  · -- nothing stands in the way of the file
    rw [emptyOpen_eq] at rooted contained missed
    obtain rfl : ⟨"/p"⟩ = root := Except.ok.inj rooted
    obtain rfl : ⟨"/p"⟩ = p := Except.ok.inj (Eq.trans (by decide +kernel) contained)
    have made : (Disk.createFile ⟨"/p"⟩ "b.txt" emptyProject).1 = .ok ⟨"/p/b.txt"⟩ := by
      decide +kernel
    rw [made] at missed
    cases missed
  · simp [Act.answer, done, Except.map] at refused

/-- A file that was made is shown. -/
theorem made_file_shown : emptyProject.IsStorable ∧
    Reached Act.IsWhole emptyProject fileMade (some ["p"]) ∧
    fileMade.editor.project = some empty ∧
    fileMade.disk.outline empty.path = .ok fileMade.editor.tree.value := by
  have storable : emptyProject.IsStorable := .of_listed (by decide) (by decide)
  have reached : Reached Act.IsWhole emptyProject fileMade (some ["p"]) :=
    .step (.createFile ⟨""⟩ "b.txt") emptyOpen_reached fileMade_whole
  have opened : fileMade.editor.project = some empty := by
    have alike := (createFile_cases ⟨""⟩ "b.txt" emptyOpen).1
    rw [fileMade, Act.after, alike.project, emptyOpen_eq]
  exact ⟨storable, reached, opened, shows_outline storable reached empty opened⟩

/-- A directory is made for a file that cannot be made, and the outline does not show it. -/
theorem outline_misses_directory :
    ((Act.createFile ⟨""⟩ "d/x/").after emptyOpen).editor.tree.value = [] ∧
      ((Act.createFile ⟨""⟩ "d/x/").after emptyOpen).disk.outline ⟨"/p"⟩ =
        .ok [.node "d" ⟨"/p/d"⟩ true []] := by
  have refused : (Act.createFile ⟨""⟩ "d/x/").answer emptyOpen =
      .error (.io ⟨"/p/d/x/"⟩ .isDirectory) := by
    rw [emptyOpen_eq]
    decide +kernel
  constructor
  · rcases createFile_answer emptyOpen_storable ⟨""⟩ "d/x/" with
      ⟨e, failed⟩ | ⟨root, p, -, -, ⟨e, -, failed⟩ | ⟨q, project, tree, -, -, -, done⟩⟩
    · rw [Act.after, failed, emptyOpen_eq]
    · rw [Act.after, failed, emptyOpen_eq]
    · simp [Act.answer, done, Except.map] at refused
  · rw [emptyOpen_eq]
    set d := ((Act.createFile ⟨""⟩ "d/x/").after _).disk with made
    have there : d.isThere ⟨"/p"⟩ = true := by
      rw [made]
      decide +kernel
    have names : d.readNames ⟨"/p"⟩ = .ok ["d"] := by
      rw [made]
      decide +kernel
    have deep : d.outlineLevels = 124 := by
      rw [made]
      decide +kernel
    have inner : d.isDir (Path.child ⟨"/p"⟩ "d") = true := by
      rw [made]
      decide +kernel
    have names' : d.readNames (Path.child ⟨"/p"⟩ "d") = .ok [] := by
      rw [made]
      decide +kernel
    have child : Path.child ⟨"/p"⟩ "d" = ⟨"/p/d"⟩ := by decide
    have shown : d.shownIn ⟨"/p"⟩ ["d"] = [("d", true)] := by
      rw [shownIn, List.filter_cons_of_pos (by decide), List.filter_nil, List.map_singleton, inner,
        List.mergeSort_singleton]
    have below : d.outlineLevel 123 ⟨"/p/d"⟩ = .ok [] := by
      rw [outlineLevel, ← child, names']
      simp [shownIn, Except.mapError, bind, Except.bind, pure, Except.pure]
    rw [outline, if_pos there, deep, outlineLevel, names]
    simp [shown, child, below, Except.mapError, bind, Except.bind, pure, Except.pure]

end Workbench.Editor
