import Workbench.Proofs.Editor.Run

/-! What an editor shows is on the disk, if its projects have no links. Then every operation is one
that writes through no link. -/
namespace Workbench.Editor

open Disk

/-- A project that is opened has no link at or below it. -/
def Act.OpensLinkless (act : Act) (desk : Desk) : Prop :=
  match act with
  | .openProject p => ∀ root : Location, desk.disk.locate true p.path = .ok root →
      ∀ rest target, desk.disk.get? (root ++ rest) ≠ some (.link target)
  | _ => True

/-- No link lies in the project. -/
def IsLinkless (desk : Desk) (home : Option Location) : Prop :=
  ∀ root : Location, home = some root → ∀ rest target,
    desk.disk.get? (root ++ rest) ≠ some (.link target)

variable {desk : Desk} {home : Option Location} {d : Disk}

theorem IsLinkless.isUnlinked (linkless : IsLinkless desk home) (sound : IsSound desk home)
    (act : Act) : act.IsUnlinked desk := by
  cases act with
  | saveFile text =>
    intro file l target shown
    rcases sound.shows with ⟨closed, -⟩ | ⟨root, dir, name, runnable, place, ⟨rest, below⟩, shown',
      found⟩
    · simp [closed] at shown
    · rw [shown] at shown'
      cases shown'
      have tree := sound.storable.toIsTree
      refine (unlinked_temporary_iff tree (parentSpot_path tree (by simp [found]))).mp ?_ l target
      intro target
      rw [← below, List.append_assoc]
      exact linkless root place _ target
  | createFile dir name =>
    intro top l rooted contained front _ _ target found
    obtain ⟨-, root, l', entry, -, place, -, -, ⟨rest, below⟩, same, found', -⟩ :=
      sound.of_contained _ l.path contained
    -- both locations have proper names, and the same path
    have proper := sound.storable.isProper (l ++ front) (by simp [found])
    have proper' := sound.storable.isProper l' (by simp [found'])
    have names : l = l' := by
      rw [← Location.path_names l fun name member => proper name (List.mem_append_left _ member),
        same, Location.path_names l' proper']
    rw [names, ← below, List.append_assoc] at found
    exact linkless root place _ target found
  | _ => trivial

theorem IsLinkless.step (linkless : IsLinkless desk home) (sound : IsSound desk home) (act : Act)
    (opens : act.OpensLinkless desk) : IsLinkless (act.after desk) (act.home desk home) := by
  have keeps := (sound.step act (linkless.isUnlinked sound act)).2
  have still : IsLinkless (act.after desk) home := by
    intro root place rest target found
    rcases keeps with same | ⟨p, root', opened, place', confined⟩
    · rw [same] at found
      exact linkless root place rest target found
    · exact linkless root place rest target (confined.link _ target found)
  cases act with
  | openProject p =>
    obtain ⟨-, same⟩ := sound.openProject p
    by_cases there : p.isThere desk.disk = true
    · obtain ⟨root, located, -⟩ := (isDir_iff _).mp there
      intro r place rest target found
      simp only [Act.home, there, if_true, located, Except.toOption, Option.some.injEq] at place
      subst place
      rw [Act.after, same] at found
      exact opens root located rest target found
    · simpa only [Act.home, if_neg there] using still
  | _ => exact still

theorem Reached.linkless (storable : d.IsStorable)
    (reached : Reached Act.OpensLinkless d desk home) :
    IsSound desk home ∧ IsLinkless desk home := by
  induction reached with
  | start log =>
    exact ⟨Reached.sound storable (.start log), fun _ place => by cases place⟩
  | step act _ opens ih =>
    obtain ⟨sound, linkless⟩ := ih
    exact ⟨(sound.step act (linkless.isUnlinked sound act)).1, linkless.step sound act opens⟩

/-- Nothing is shown, or the text of a file of the project as it is on the disk. What is deleted
closes the file if it lies at or above it, and leaves it open if not. -/
theorem shown_as_on_disk (storable : d.IsStorable)
    (reached : Reached Act.OpensLinkless d desk home) :
    Shows desk home ∧
    (∀ p root k, desk.editor.project = some p → home = some root →
      desk.disk.locate true p.path = .ok k → k = root) ∧
    ∀ target,
      (∀ p, desk.editor.contained desk.disk target = .ok p →
          desk.editor.canonicalRoot desk.disk = .ok p) ∧ (delete target desk).2 = desk ∨
        ∃ l : Location, desk.editor.contained desk.disk target = .ok l.path ∧
          (∀ k, l <+: k → (delete target desk).2.disk.get? k = none) ∧
          ∀ k : Location, desk.editor.currentFile.value = some k.path →
            (desk.disk.get? k).isSome →
            (l <+: k → (delete target desk).2.editor.currentFile.value = none ∧
              (delete target desk).2.editor.content.value = "") ∧
            (¬l <+: k → (delete target desk).2.editor.currentFile.value = some k.path ∧
              (delete target desk).2.editor.content.value = desk.editor.content.value) := by
  obtain ⟨sound, -⟩ := reached.linkless storable
  refine ⟨sound.shows, sound.located, fun target => ?_⟩
  rcases delete_cases target desk with ⟨same, whole⟩ | ⟨p, contained, part, -⟩
  · exact .inl ⟨whole, same⟩
  · obtain ⟨-, root, l, -, -, -, -, rfl, proper, -, gone, -, closes⟩ :=
      sound.delete_contained target p contained part
    refine .inr ⟨l, contained, gone, fun k shown there => ?_⟩
    simp only [shown, Option.any_some,
      Location.path_startsWith_iff k l (sound.storable.isProper k there) proper] at closes
    refine ⟨fun within => by rwa [if_pos within] at closes, fun outside => ?_⟩
    rw [if_neg outside] at closes
    exact ⟨closes.file.trans shown, closes.text⟩

/-- A project whose path goes down into one of its directories and up again. -/
def roundabout : Disk where
  entries :=
    [(["p"], .directory), (["p", "a.txt"], .file "hi".toUTF8 false), (["p", "sub"], .directory)]
  workDir := []

def around : Project := .make "p" ⟨"/p/sub/.."⟩ 0

def aroundOpen : Desk :=
  (openFile ⟨"a.txt"⟩ (openProject around { disk := roundabout }).2).2

theorem aroundOpen_facts : aroundOpen.disk = roundabout ∧ aroundOpen.editor.project = some around ∧
    aroundOpen.editor.currentFile.value = some ⟨"/p/a.txt"⟩ :=
  openFile_openProject around roundabout ⟨"a.txt"⟩ ⟨"/p/a.txt"⟩ "hi" (by decide)
    (by decide +kernel) (by decide)

theorem aroundOpen_reached : Reached Act.OpensLinkless roundabout aroundOpen (some ["p"]) := by
  have home : (Act.openProject around).home { disk := roundabout } none = some ["p"] := by
    decide
  have linkless : (Act.openProject around).OpensLinkless { disk := roundabout } := by
    intro root _ rest target
    exact get?_ne_link (d := roundabout) (by simp [roundabout]) _ target
  have opened : Reached Act.OpensLinkless roundabout _ _ :=
    .step (.openProject around) (.start {}) linkless
  rw [home] at opened
  exact .step (.openFile ⟨"a.txt"⟩) opened trivial

/-- The file that is open is shown as it is on the disk. -/
theorem around_shown : roundabout.IsStorable ∧
    Reached Act.OpensLinkless roundabout aroundOpen (some ["p"]) ∧
    aroundOpen.editor.currentFile.value = some ⟨"/p/a.txt"⟩ ∧ Shows aroundOpen (some ["p"]) := by
  have storable : roundabout.IsStorable := .of_listed (by decide) (by decide)
  exact ⟨storable, aroundOpen_reached, aroundOpen_facts.2.2,
    (shown_as_on_disk storable aroundOpen_reached).1⟩

/-- Once the directory is deleted that the path of the project goes down into, the project has no
canonical path that the open file could lie below. -/
theorem root_without_canonical :
    Reached Act.OpensLinkless roundabout (delete ⟨"sub"⟩ aroundOpen).2 (some ["p"]) ∧
      (delete ⟨"sub"⟩ aroundOpen).2.editor.currentFile.value = some ⟨"/p/a.txt"⟩ ∧
      ∀ root, (delete ⟨"sub"⟩ aroundOpen).2.editor.canonicalRoot
        (delete ⟨"sub"⟩ aroundOpen).2.disk ≠ .ok root := by
  refine ⟨.step (.delete ⟨"sub"⟩) aroundOpen_reached trivial, ?_⟩
  obtain ⟨disk, opened, shown⟩ := aroundOpen_facts
  have inside : aroundOpen.editor.contained aroundOpen.disk ⟨"sub"⟩ = .ok ⟨"/p/sub"⟩ := by
    rw [contained_of_project around opened, disk]
    decide +kernel
  have top : aroundOpen.editor.canonicalRoot aroundOpen.disk = .ok ⟨"/p"⟩ := by
    rw [canonicalRoot, Editor.root, opened, disk]
    decide
  rcases delete_cases ⟨"sub"⟩ aroundOpen with ⟨-, whole⟩ | ⟨p, contained, -, gone, still, result⟩
  · have same := whole _ inside
    simp [top] at same
  · rw [inside] at contained
    cases contained
    rw [disk] at gone result
    have deleted : (deletePath ⟨"/p/sub"⟩ roundabout).1.isOk = true := by decide +kernel
    have outside : (Path.mk "/p/a.txt").startsWith ⟨"/p/sub"⟩ = false := by decide +kernel
    have left : ((deletePath ⟨"/p/sub"⟩ roundabout).2.canonical ⟨"/p/sub/.."⟩).isOk = false := by
      decide +kernel
    rcases result with ⟨⟨e, failed⟩, -⟩ | ⟨-, closes⟩
    · rw [failed] at deleted
      cases deleted
    · simp only [shown, Option.any_some, outside, Bool.false_eq_true, if_false] at closes
      refine ⟨closes.file.trans shown, fun root found => ?_⟩
      rw [canonicalRoot, Editor.root, still, opened, gone] at found
      simp only [around, Project.make, bind, Except.bind] at found
      generalize (deletePath ⟨"/p/sub"⟩ roundabout).2.canonical ⟨"/p/sub/.."⟩ = form at left found
      cases form with
      | error fault => cases found
      | ok p => cases left

end Workbench.Editor
