import Workbench.Proofs.Editor.Act

/-!
# The paths that an editor admits

A path is one of the project by where it leads, not by how it is written: the project and the path
are both followed to the entries that they lead to, through links and dots, and the second must lie
at or below the first. A path that leads outside is told apart from one that leads nowhere.
-/
namespace Workbench

namespace Disk

/-- A path leads to an entry if its steps do, through no more links than are followed. -/
def LeadsTo (d : Disk) (p : Path) (l : Location) : Prop :=
  p.hasNul = false ∧ p.text ≠ "" ∧
    ∃ links, links ≤ linkLimit ∧ d.Leads (d.startOf p) p.steps links l

theorem locate_iff_leadsTo {d : Disk} (p : Path) (l : Location) :
    d.locate true p = .ok l ↔ d.LeadsTo p l := by
  rw [locate_eq_ok_iff, trace_eq_taken_iff, LeadsTo]

theorem LeadsTo.unique {d : Disk} {p : Path} {l k : Location} (leads : d.LeadsTo p l)
    (leads' : d.LeadsTo p k) : l = k := by
  rw [← locate_iff_leadsTo] at leads leads'
  rw [leads] at leads'
  exact Except.ok.inj leads'

end Disk

namespace Editor

open Disk

/-- A path as it is seen from the canonical root: what is absolute stays as it is. -/
def seenFrom (root target : Path) : Path :=
  if target.isAbsolute then target else root.join target

theorem join_eq_seenFrom (root target : Path) : root.join target = seenFrom root target := by
  unfold seenFrom
  split
  next absolute => rw [Path.join, if_pos absolute]
  next => rfl

/-- What becomes of a path that is asked for in a project. -/
inductive Admits (d : Disk) (project target : Path) : Outcome Path → Prop
  /-- It leads to an entry of the project, and is that entry's canonical path from then on. -/
  | inside {root l : Location} : d.LeadsTo project root →
      d.LeadsTo (seenFrom root.path target) l → root <+: l →
      Admits d project target (.ok l.path)
  /-- What it leads to is there, but not in the project. -/
  | outside {root l : Location} : d.LeadsTo project root →
      d.LeadsTo (seenFrom root.path target) l → ¬root <+: l →
      Admits d project target (.error (.refused (.outsideProject (seenFrom root.path target))))
  /-- It leads nowhere. -/
  | missing {root : Location} : d.LeadsTo project root →
      (∀ l, ¬d.LeadsTo (seenFrom root.path target) l) →
      Admits d project target (.error (.notFound (seenFrom root.path target)))
  /-- The project itself is gone. -/
  | gone : (∀ root, ¬d.LeadsTo project root) →
      Admits d project target (.error (.notFound project))

variable {d : Disk} {desk desk' : Desk}

/-- There is one answer at most to a path. -/
theorem Admits.unique {project target : Path} {answer answer' : Outcome Path}
    (admits : Admits d project target answer) (admits' : Admits d project target answer') :
    answer = answer' := by
  cases admits with
  | gone rootless =>
    cases admits' with
    | gone => rfl
    | inside rooted | outside rooted | missing rooted => exact absurd rooted (rootless _)
  | inside rooted leads within =>
    cases admits' with
    | gone rootless => exact absurd rooted (rootless _)
    | inside rooted' leads' =>
      cases rooted.unique rooted'
      rw [leads.unique leads']
    | outside rooted' leads' without =>
      cases rooted.unique rooted'
      cases leads.unique leads'
      exact absurd within without
    | missing rooted' nowhere =>
      cases rooted.unique rooted'
      exact absurd leads (nowhere _)
  | outside rooted leads without =>
    cases admits' with
    | gone rootless => exact absurd rooted (rootless _)
    | inside rooted' leads' within =>
      cases rooted.unique rooted'
      cases leads.unique leads'
      exact absurd within without
    | outside rooted' =>
      cases rooted.unique rooted'
      rfl
    | missing rooted' nowhere =>
      cases rooted.unique rooted'
      exact absurd leads (nowhere _)
  | missing rooted nowhere =>
    cases admits' with
    | gone rootless => exact absurd rooted (rootless _)
    | inside rooted' leads' =>
      cases rooted.unique rooted'
      exact absurd leads' (nowhere _)
    | outside rooted' leads' =>
      cases rooted.unique rooted'
      exact absurd leads' (nowhere _)
    | missing rooted' =>
      cases rooted.unique rooted'
      rfl

/-- Where a path of the project leads to decides on it. -/
theorem contained_admits {e : Editor} {project : Project} (tree : d.IsTree)
    (opened : e.project = some project) (target : Path) :
    Admits d project.path target (e.contained d target) := by
  have top : e.canonicalRoot d = (d.canonical project.path).mapError fun _ => .notFound project.path := by
    simp [canonicalRoot, Editor.root, opened, bind, Except.bind]
  unfold Editor.contained
  rw [top]
  cases rooted : d.locate true project.path with
  | error fault =>
    -- without a canonical root nothing else is looked at
    have failed : d.canonical project.path = .error fault := by
      simp [canonical, rooted, bind, Except.bind]
    rw [failed]
    refine .gone fun root leads => ?_
    rw [← locate_iff_leadsTo, rooted] at leads
    cases leads
  | ok root =>
    have home := (locate_iff_leadsTo _ _).mp rooted
    rw [(canonical_eq_ok_iff _ _).mpr ⟨root, rooted, rfl⟩]
    simp only [Except.mapError, bind, Except.bind, join_eq_seenFrom]
    cases located : d.locate true (seenFrom root.path target) with
    | error fault =>
      have failed : d.canonical (seenFrom root.path target) = .error fault := by
        simp [canonical, located, bind, Except.bind]
      rw [failed]
      refine .missing home fun l leads => ?_
      rw [← locate_iff_leadsTo, located] at leads
      cases leads
    | ok l =>
      have leads := (locate_iff_leadsTo _ _).mp located
      rw [(canonical_eq_ok_iff _ _).mpr ⟨l, located, rfl⟩]
      obtain ⟨top, there, -⟩ := locate_plain tree _ _ rooted
      obtain ⟨entry, found, -⟩ := locate_plain tree _ _ located
      -- the texts of canonical paths compare as the places do
      have compare : Serve.isWithin root.path l.path = true ↔ root <+: l :=
        Location.path_startsWith_iff l root (tree.isProper l (by simp [found]))
          (tree.isProper root (by simp [there]))
      by_cases within : root <+: l
      · simp only [compare.mpr within, if_true]
        exact .inside home leads within
      · simp only [mt compare.mp within]
        exact .outside home leads within

/-- The answer that an editor gives to a path is the one that is due. -/
theorem contained_iff_admits {e : Editor} {project : Project} (tree : d.IsTree)
    (opened : e.project = some project) (target : Path) (answer : Outcome Path) :
    e.contained d target = answer ↔ Admits d project.path target answer := by
  constructor
  · intro answered
    rw [← answered]
    exact contained_admits tree opened target
  · intro admits
    exact (contained_admits tree opened target).unique admits

/-- What is asked for and not admitted is refused by the same error, and nothing happens. -/
theorem openFile_of_error (file : Path) (e : Error)
    (refused : desk.editor.contained desk.disk file = .error e) :
    openFile file desk = (.error e, desk) := by
  unfold openFile
  rw [ask_bind, refused]

/-- A file is opened by the text that it has on the disk. -/
theorem openFile_eq_ok_iff (file : Path) (text : String) :
    openFile file desk = (.ok text, desk') ↔
      ∃ p, desk.editor.contained desk.disk file = .ok p ∧ desk.disk.readText p = .ok text ∧
        desk' = { desk with editor := desk.editor.showing (some p) text } := by
  constructor
  · intro opened
    rcases openFile_answer file desk with ⟨e, refused⟩ | ⟨p, text', contained, read, answered⟩
    · rw [refused] at opened
      cases opened
    · rw [answered] at opened
      cases opened
      exact ⟨p, contained, read, rfl⟩
  · rintro ⟨p, contained, read, rfl⟩
    have after := openFile_contained file p text contained read
    rcases openFile_answer file desk with ⟨e, refused⟩ | ⟨p', text', contained', read', answered⟩
    · -- what can be read is not refused
      unfold openFile at refused
      rw [ask_bind, contained] at refused
      dsimp only at refused
      rw [ask_bind, fileText, read] at refused
      cases refused
    · rw [contained] at contained'
      cases contained'
      rw [read] at read'
      cases read'
      exact answered

/-- Canonical paths compare by their components as the places do. -/
theorem contained_eq_ok_iff {e : Editor} {project : Project} (tree : d.IsTree)
    (opened : e.project = some project) (target p : Path) :
    e.contained d target = .ok p ↔
      ∃ root, d.canonical project.path = .ok root ∧ d.canonical (seenFrom root target) = .ok p ∧
        root.components <+: p.components := by
  rw [contained_iff_admits tree opened]
  have proper {q : Path} {l : Location} (leads : d.LeadsTo q l) : l.IsProper := by
    obtain ⟨entry, found, -⟩ := locate_plain tree q l ((locate_iff_leadsTo _ _).mpr leads)
    exact tree.isProper l (by simp [found])
  have compare {q q' : Path} {root l : Location} (rooted : d.LeadsTo q root)
      (leads : d.LeadsTo q' l) : root.path.components <+: l.path.components ↔ root <+: l := by
    rw [← Location.path_startsWith_iff l root (proper leads) (proper rooted), Path.startsWith,
      List.isPrefixOf_iff_prefix]
  constructor
  · intro admits
    cases admits with
    | @inside root l rooted leads within =>
      refine ⟨root.path, ?_, ?_, (compare rooted leads).mpr within⟩
      · exact (canonical_eq_ok_iff _ _).mpr ⟨root, (locate_iff_leadsTo _ _).mpr rooted, rfl⟩
      · exact (canonical_eq_ok_iff _ _).mpr ⟨l, (locate_iff_leadsTo _ _).mpr leads, rfl⟩
  · rintro ⟨_, formed, formed', within⟩
    obtain ⟨root, rooted, rfl⟩ := (canonical_eq_ok_iff _ _).mp formed
    obtain ⟨l, located, rfl⟩ := (canonical_eq_ok_iff _ _).mp formed'
    have rooted := (locate_iff_leadsTo _ _).mp rooted
    have leads := (locate_iff_leadsTo _ _).mp located
    exact .inside rooted leads ((compare rooted leads).mp within)

/-- An admitted path has the text of the file that it was admitted for. -/
theorem readText_of_admits {project target p : Path} (tree : d.IsTree)
    (admits : Admits d project target (.ok p)) (text : String) :
    d.readText p = .ok text ↔
      ∃ l runnable, p = l.path ∧ d.get? l = some (.file text.toUTF8 runnable) := by
  cases admits with
  | @inside _ l _ leads =>
    obtain ⟨entry, found, plain⟩ := locate_plain tree _ _ ((locate_iff_leadsTo _ _).mpr leads)
    have located := locate_path tree l entry found plain
    rw [readText_eq_ok_iff, readBytes_eq_ok_iff]
    constructor
    · rintro ⟨k, runnable, located', file⟩
      rw [located] at located'
      cases located'
      exact ⟨l, runnable, rfl, file⟩
    · rintro ⟨k, runnable, same, file⟩
      have proper := tree.isProper l (by simp [found])
      cases Location.path_injective proper (tree.isProper k (by simp [file])) same
      exact ⟨l, runnable, located, file⟩

/-- A path is admitted by an editor if and only if the project has a canonical path, the path has one
as it is seen from there, and the second has the components of the first in front. What is there
and not in the project is refused as lying outside, and what is not there is not found. So a file is
opened if and only if the path leads to it in the project and it is a text, by that text; a path that
is not admitted opens nothing. -/
theorem admitted_by_place {project : Project} (tree : desk.disk.IsTree)
    (opened : desk.editor.project = some project) (target : Path) :
    (∀ p, desk.editor.contained desk.disk target = .ok p ↔
      ∃ root, desk.disk.canonical project.path = .ok root ∧
        desk.disk.canonical (seenFrom root target) = .ok p ∧ root.components <+: p.components) ∧
    (∀ answer, desk.editor.contained desk.disk target = answer ↔
      Admits desk.disk project.path target answer) ∧
    (∀ text desk', openFile target desk = (.ok text, desk') ↔
      ∃ l runnable, Admits desk.disk project.path target (.ok (Location.path l)) ∧
        desk.disk.get? l = some (.file text.toUTF8 runnable) ∧
        desk' = { desk with editor := desk.editor.showing (some (Location.path l)) text }) ∧
    ∀ e, Admits desk.disk project.path target (.error e) →
      openFile target desk = (.error e, desk) := by
  have decided := contained_iff_admits tree opened target
  refine ⟨contained_eq_ok_iff tree opened target, decided, fun text desk' => ?_, fun e admits => ?_⟩
  · rw [openFile_eq_ok_iff]
    constructor
    · rintro ⟨p, contained, read, rfl⟩
      have admits := (decided _).mp contained
      obtain ⟨l, runnable, rfl, file⟩ := (readText_of_admits tree admits text).mp read
      exact ⟨l, runnable, admits, file, rfl⟩
    · rintro ⟨l, runnable, admits, file, rfl⟩
      have read := (readText_of_admits tree admits text).mpr ⟨l, runnable, rfl, file⟩
      exact ⟨_, (decided _).mpr admits, read, rfl⟩
  · exact openFile_of_error target e ((decided _).mpr admits)

/-- A project with a link to its own file and a link out of it. -/
def crossed : Disk where
  entries :=
    [(["p"], .directory), (["p", "a.txt"], .file "hi".toUTF8 false),
      (["p", "in"], .link ⟨"../q/../p/./a.txt"⟩), (["p", "out"], .link ⟨"/q"⟩),
      (["q"], .directory), (["q", "key"], .file "k".toUTF8 false)]
  workDir := ["q"]

/-- The project is opened by a path from the working directory. -/
def crossedDesk : Desk where
  disk := crossed
  editor := { project := some (.make "p" ⟨"../p/."⟩ 0) }

/-- The first link opens the file, the second leads out, and a name is missing behind it. -/
theorem crossed_admitted : crossed.IsTree ∧
    openFile ⟨"in"⟩ crossedDesk = (.ok "hi",
      { crossedDesk with editor := crossedDesk.editor.showing (some ⟨"/p/a.txt"⟩) "hi" }) ∧
    openFile ⟨"/p/out/key"⟩ crossedDesk =
      (.error (.refused (.outsideProject ⟨"/p/out/key"⟩)), crossedDesk) ∧
    openFile ⟨"out/lock"⟩ crossedDesk = (.error (.notFound ⟨"/p/out/lock"⟩), crossedDesk) := by
  have tree : crossed.IsTree := WellFormed.isTree (by decide)
  have rooted : crossed.LeadsTo ⟨"../p/."⟩ ["p"] := (locate_iff_leadsTo _ _).mp (by decide)
  have opened : crossedDesk.editor.project = some (.make "p" ⟨"../p/."⟩ 0) := rfl
  have decided (target : Path) := admitted_by_place tree opened target
  obtain ⟨file, link, key, lock⟩ : Location.path ["p", "a.txt"] = ⟨"/p/a.txt"⟩ ∧
      seenFrom (Location.path ["p"]) ⟨"in"⟩ = ⟨"/p/in"⟩ ∧
      seenFrom (Location.path ["p"]) ⟨"/p/out/key"⟩ = ⟨"/p/out/key"⟩ ∧
      seenFrom (Location.path ["p"]) ⟨"out/lock"⟩ = ⟨"/p/out/lock"⟩ := by decide
  obtain ⟨located, located', missing⟩ : crossed.locate true ⟨"/p/in"⟩ = .ok ["p", "a.txt"] ∧
      crossed.locate true ⟨"/p/out/key"⟩ = .ok ["q", "key"] ∧
      crossed.locate true ⟨"/p/out/lock"⟩ = .error .missing := by decide +kernel
  rw [← link, locate_iff_leadsTo] at located
  rw [← key, locate_iff_leadsTo] at located'
  refine ⟨tree, ?_, ?_, ?_⟩
  · rw [← file]
    exact ((decided ⟨"in"⟩).2.2.1 "hi" _).mpr
      ⟨["p", "a.txt"], false, .inside rooted located (by decide), by decide, rfl⟩
  · have refused := (decided ⟨"/p/out/key"⟩).2.2.2 _ (.outside rooted located' (by decide))
    rw [key] at refused
    exact refused
  · have nowhere (l : Location) :
        ¬crossed.LeadsTo (seenFrom (Location.path ["p"]) ⟨"out/lock"⟩) l := by
      rw [← locate_iff_leadsTo, lock, missing]
      exact fun same => by cases same
    have refused := (decided ⟨"out/lock"⟩).2.2.2 _ (.missing rooted nowhere)
    rw [lock] at refused
    exact refused

end Editor

end Workbench
