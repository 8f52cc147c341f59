import Workbench.Proofs.Disk.Forest
import Workbench.Proofs.Editor.Admission

/-! What an outline shows and what an editor admits. A shown entry is reached by entering one
directory after another, through links too. Where it leads is told by the last link on the way:
before that link nothing counts, and behind it the names lead down. -/
namespace Workbench

namespace Disk

open Outline (nodesAt)

variable {d : Disk} {p : Path} {l : Location}

/-- A path that names a link, as it is before the link is followed. -/
def IsLink (d : Disk) (p : Path) : Prop :=
  ∃ l target, d.locate false p = .ok l ∧ d.get? l = some (.link target)

/-- A listed entry is reached by its name, or it is a link. -/
theorem locate_child_or_isLink (tree : d.IsTree) (located : d.locate true p = .ok l) (name : String)
    (lists : d.Lists p name) :
    d.locate true (p.child name) = .ok (l ++ [name]) ∨ d.IsLink (p.child name) := by
  obtain ⟨k, located', directory, there, -⟩ := lists
  rw [located] at located'
  cases located'
  obtain ⟨e, found⟩ := Option.isSome_iff_exists.mp there
  by_cases link : ∃ target, e = .link target
  · obtain ⟨target, rfl⟩ := link
    have named : IsName name := tree.isName l name there
    have nonempty : p.text ≠ "" := ((locate_eq_ok_iff true p l).mp located).2.1
    have below := Path.descends nonempty [name] (Location.isProper_singleton name named)
    have unfollowed : d.locate false (p.child name) = .ok (l ++ [name]) :=
      locate_of_parentSpot false l name _ (parentSpot_child located directory name named) found
        (.inr (below.endsInSlash (by simp))) (.inr rfl)
    exact .inr ⟨_, target, unfollowed, found⟩
  · exact .inl (locate_child tree located name e found fun target same => link ⟨target, same⟩)

/-- Where a shown entry leads: by its names from the top, or by those behind the last link. -/
theorem leads_or_passes_link (tree : d.IsTree) (names : List String) (shown : d.Shown p names)
    (located : d.locate true p = .ok l) (k : Location)
    (leads : d.locate true (p.under names) = .ok k) :
    k = l ++ names ∨ ∃ mid rest out, names = mid ++ rest ∧ mid ≠ [] ∧ d.IsLink (p.under mid) ∧
      d.locate true (p.under mid) = .ok out ∧ k = out ++ rest := by
  -- the last link is found behind the first name, or else it is the first name
  induction shown generalizing l with
  | @entry p name lists =>
    rcases locate_child_or_isLink tree located name lists with direct | link
    · left
      exact Except.ok.inj (leads.symm.trans direct)
    · right
      exact ⟨[name], [], k, rfl, by simp, link, leads, (List.append_nil k).symm⟩
  | @deeper p name rest lists shown ih =>
    obtain ⟨here, entered, -⟩ := (isDir_iff _).mp (isDir_of_shown shown)
    rcases ih entered leads with direct | ⟨mid, back, out, rfl, -, link, way, same⟩
    · rcases locate_child_or_isLink tree located name lists with inside | link
      · left
        rw [inside] at entered
        cases entered
        rw [direct, List.append_assoc]
        rfl
      · right
        exact ⟨[name], rest, here, rfl, by simp, link, entered, direct⟩
    · right
      exact ⟨name :: mid, back, out, rfl, by simp, link, way, same⟩

/-- What is shown behind no link leads where its names do. -/
theorem locate_of_unlinked (tree : d.IsTree) (names : List String) (shown : d.Shown p names)
    (located : d.locate true p = .ok l)
    (unlinked : ∀ mid, mid <+: names → mid ≠ [] → ¬d.IsLink (p.under mid)) :
    d.locate true (p.under names) = .ok (l ++ names) := by
  induction shown generalizing l with
  | @entry p name lists =>
    exact (locate_child_or_isLink tree located name lists).resolve_right
      (unlinked [name] List.prefix_rfl (by simp))
  | @deeper p name rest lists shown ih =>
    have inside := (locate_child_or_isLink tree located name lists).resolve_right
      (unlinked [name] ⟨rest, rfl⟩ (by simp))
    have way := ih inside fun mid before _ =>
      unlinked (name :: mid) (List.cons_prefix_cons.mpr ⟨rfl, before⟩) (by simp)
    rwa [List.append_assoc] at way

/-- A link of a forest that names pass, behind the first of them, and that leads to a place of some
kind. -/
def PassesLink (d : Disk) (forest : List Outline) (front names : List String)
    (ends : Path → Prop) : Prop :=
  ∃ mid, front <+: mid ∧ mid ≠ front ∧ mid <+: names ∧ ∃ link ∈ nodesAt mid forest,
    d.IsLink link.path ∧ ∃ out, d.canonical link.path = .ok out ∧ ends out

/-- Canonical paths compare as the places that they are the paths of. -/
theorem components_isPrefix_iff (tree : d.IsTree) {q : Path} {k : Location}
    (located : d.locate true p = .ok l) (located' : d.locate true q = .ok k) :
    (Location.path l).components <+: (Location.path k).components ↔ l <+: k := by
  obtain ⟨e, found, -⟩ := locate_plain tree p l located
  obtain ⟨e', found', -⟩ := locate_plain tree q k located'
  rw [← Location.path_startsWith_iff k l (tree.isProper k (by simp [found']))
    (tree.isProper l (by simp [found])), Path.startsWith, List.isPrefixOf_iff_prefix]

section

variable {root : Path} {forest : List Outline} {node : Outline} (tree : d.IsTree)
  (outlined : d.outline root = .ok forest)
include tree outlined

/-- Only a directory has nodes. -/
theorem isNode_of_outline (names : List String) (member : node ∈ nodesAt names forest) :
    d.isDir root = true ∧ d.IsNode d.outlineLevels root names node := by
  rw [outline] at outlined
  split at outlined
  · have isNode := isNode_of_mem_nodesAt tree names outlined member
    exact ⟨isDir_of_shown isNode.shown, isNode⟩
  · cases outlined
    simp at member

/-- Where a node leads, seen from a directory above it: down by its names, or on from a link. -/
theorem leads_or_passesLink (front rest : List String) (deeper : rest ≠ [])
    (member : node ∈ nodesAt (front ++ rest) forest) (l k : Location)
    (located : d.locate true (root.under front) = .ok l)
    (leads : d.locate true (root.under (front ++ rest)) = .ok k) :
    k = l ++ rest ∨ ∃ q out back, d.locate true q = .ok out ∧ k = out ++ back ∧
      ∀ ends : Path → Prop, ends (Location.path out) →
        d.PassesLink forest front (front ++ rest) ends := by
  have whole (back : List String) : root.under (front ++ back) = (root.under front).under back :=
    List.foldl_append
  have shown := (isNode_of_outline tree outlined _ member).2.shown
  rw [whole] at leads
  rcases leads_or_passes_link tree rest (shown.drop front rest deeper) located k leads with
    direct | ⟨mid, back, out, rfl, nonempty, isLink, way, same⟩
  · exact .inl direct
  · refine .inr ⟨_, out, back, way, same, fun ends kind => ?_⟩
    rw [← List.append_assoc] at member ⊢
    obtain ⟨link, inside⟩ :=
      Outline.exists_mem_nodesAt (front ++ mid) back forest (by simp [nonempty])
      node member
    have path : link.path = (root.under front).under mid :=
      (isNode_of_outline tree outlined _ inside).2.path.trans (whole mid)
    rw [← path] at isLink way
    exact ⟨front ++ mid, List.prefix_append _ _, by simpa using nonempty, List.prefix_append _ _,
      link, inside, isLink, Location.path out, (canonical_eq_ok_iff _ _).mpr ⟨out, way, rfl⟩, kind⟩

section

variable (names : List String) (member : node ∈ nodesAt names forest) (q : Path)
  (leads : d.canonical node.path = .ok q)
include member leads

/-- A node that lies outside of the root has passed a link that leads out. -/
theorem inside_or_passesLink (rooted : d.locate true root = .ok l) :
    (Location.path l).components <+: q.components ∨ d.PassesLink forest [] names fun out =>
      ¬(Location.path l).components <+: out.components := by
  rw [(isNode_of_outline tree outlined names member).2.path] at leads
  obtain ⟨k, located, rfl⟩ := (canonical_eq_ok_iff _ _).mp leads
  have nonempty : names ≠ [] := by
    rintro rfl
    cases member
  rw [components_isPrefix_iff tree rooted located]
  by_cases inside : l <+: k
  · exact .inl inside
  · right
    rcases leads_or_passesLink tree outlined [] names nonempty member l k rooted located with
      rfl | ⟨_, out, back, way, rfl, passes⟩
    · exact absurd (List.prefix_append l names) inside
    · -- what lies below a place in the root lies in the root
      apply passes
      rw [components_isPrefix_iff tree rooted way]
      exact fun within => inside (within.trans (List.prefix_append out back))

/-- A node that leads to a directory above it has passed a link that leads there or further up. -/
theorem passesLink_of_recurs (front : List String) (before : front <+: names) (other : front ≠ names)
    (above : d.canonical (root.under front) = .ok q) :
    d.PassesLink forest front names fun out => out.components <+: q.components := by
  rw [(isNode_of_outline tree outlined names member).2.path] at leads
  obtain ⟨k, located, rfl⟩ := (canonical_eq_ok_iff _ _).mp leads
  obtain ⟨k', located', same⟩ := (canonical_eq_ok_iff _ _).mp above
  obtain rfl : k' = k := by
    obtain ⟨e, found, -⟩ := locate_plain tree _ k located
    obtain ⟨e', found', -⟩ := locate_plain tree _ k' located'
    exact Location.path_injective (tree.isProper k' (by simp [found']))
      (tree.isProper k (by simp [found])) same
  obtain ⟨rest, rfl⟩ := before
  have deeper : rest ≠ [] := by
    rintro rfl
    exact other (List.append_nil front).symm
  rcases leads_or_passesLink tree outlined front rest deeper member k' k' located' located with
    direct | ⟨_, out, back, way, same, passes⟩
  · exact absurd (List.self_eq_append_right.mp direct) deeper
  · apply passes
    rw [components_isPrefix_iff tree way located]
    exact ⟨back, same.symm⟩

end

/-- A node that has passed no link leads where its names do. -/
theorem canonical_of_unlinked (names : List String) (member : node ∈ nodesAt names forest)
    (rooted : d.locate true root = .ok l)
    (unlinked : ∀ mid, mid <+: names → ∀ above ∈ nodesAt mid forest, ¬d.IsLink above.path) :
    d.canonical node.path = .ok (Location.path (l ++ names)) := by
  obtain ⟨-, isNode⟩ := isNode_of_outline tree outlined names member
  rw [isNode.path]
  refine (canonical_eq_ok_iff _ _).mpr ⟨l ++ names, ?_, rfl⟩
  apply locate_of_unlinked tree names isNode.shown rooted
  rintro mid ⟨back, rfl⟩ begun isLink
  obtain ⟨above, inside⟩ := Outline.exists_mem_nodesAt mid back forest begun node member
  have path := (isNode_of_outline tree outlined mid inside).2.path
  exact unlinked mid (List.prefix_append mid back) above inside (path ▸ isLink)

theorem isAbsolute_of_node (names : List String) (member : node ∈ nodesAt names forest)
    (absolute : root.isAbsolute = true) : node.path.isAbsolute = true := by
  obtain ⟨directory, isNode⟩ := isNode_of_outline tree outlined names member
  obtain ⟨l, rooted, -⟩ := (isDir_iff root).mp directory
  have nonempty : root.text ≠ "" := ((locate_eq_ok_iff true root l).mp rooted).2.1
  have descends := Path.descends nonempty names (isProper_of_shown tree names isNode.shown)
  rw [isNode.path, descends.isAbsolute, absolute]

end

end Disk

namespace Editor

open Disk
open Outline (nodesAt)

/-- An absolute path is admitted if it leads into the project. -/
theorem contained_absolute_iff {d : Disk} {e : Editor} {project : Project} (tree : d.IsTree)
    (opened : e.project = some project) (l : Location)
    (formed : d.canonical project.path = .ok (Location.path l)) (target : Path)
    (absolute : target.isAbsolute = true) (q : Path) : e.contained d target = .ok q ↔
      d.canonical target = .ok q ∧ (Location.path l).components <+: q.components := by
  have seen (top : Path) : seenFrom top target = target := by rw [seenFrom, if_pos absolute]
  rw [contained_eq_ok_iff tree opened]
  constructor
  · rintro ⟨top, formed', leads, within⟩
    rw [formed] at formed'
    cases formed'
    rw [seen] at leads
    exact ⟨leads, within⟩
  · rintro ⟨leads, within⟩
    exact ⟨_, formed, (seen _).symm ▸ leads, within⟩

/-- A node that has a canonical path lies in the root of the outline, unless it passes a link that
leads out of it. No node leads to the place of a directory above it, unless between the two it
passes a link that leads there or further up. A node that passes no link leads to the place that its
names say. An editor whose project is opened by the absolute path of the root admits a node if
and only if it has a canonical path that lies in the root. -/
theorem outline_stays_inside {d : Disk} {root : Path} {forest : List Outline} (tree : d.IsTree)
    (outlined : d.outline root = .ok forest) (names : List String) (node : Outline)
    (member : node ∈ nodesAt names forest) :
    ∃ l, d.canonical root = .ok (Location.path l) ∧ node.path = root.under names ∧
      (∀ q, d.canonical node.path = .ok q →
        ((Location.path l).components <+: q.components ∨ d.PassesLink forest [] names fun out =>
          ¬(Location.path l).components <+: out.components) ∧
        ∀ front, front <+: names → front ≠ names → d.canonical (root.under front) = .ok q →
          d.PassesLink forest front names fun out => out.components <+: q.components) ∧
      ((∀ mid, mid <+: names → ∀ above ∈ nodesAt mid forest, ¬d.IsLink above.path) →
        d.canonical node.path = .ok (Location.path (l ++ names))) ∧
      ∀ (e : Editor) (project : Project), e.project = some project → project.path = root →
        root.isAbsolute = true → ∀ q, e.contained d node.path = .ok q ↔
          d.canonical node.path = .ok q ∧ (Location.path l).components <+: q.components := by
  obtain ⟨directory, isNode⟩ := isNode_of_outline tree outlined names member
  obtain ⟨l, rooted, -⟩ := (isDir_iff root).mp directory
  have formed : d.canonical root = .ok (Location.path l) :=
    (canonical_eq_ok_iff _ _).mpr ⟨l, rooted, rfl⟩
  refine ⟨l, formed, isNode.path, ?_, ?_, ?_⟩
  · intro q leads
    constructor
    · exact inside_or_passesLink tree outlined names member q leads rooted
    · exact passesLink_of_recurs tree outlined names member q leads
  · exact canonical_of_unlinked tree outlined names member rooted
  · rintro e project opened rfl absolute q
    apply contained_absolute_iff tree opened l formed
    exact isAbsolute_of_node tree outlined names member absolute

/-- A project with a link out of it and a link to itself. -/
def knotted : Disk where
  entries :=
    [(["p"], .directory), (["p", "a.txt"], .file "a".toUTF8 false),
      (["p", "link"], .link ⟨"../out"⟩), (["p", "loop"], .link ⟨"."⟩), (["out"], .directory),
      (["out", "secret.txt"], .file "s".toUTF8 false)]
  workDir := []

theorem knotted_isTree : knotted.IsTree := WellFormed.isTree (by decide)

theorem knotted_lists (p : Path) (name : String) (located : knotted.locate true p = .ok ["p"])
    (there : (knotted.get? ["p", name]).isSome) (visible : Outline.hides name = false) :
    knotted.Lists p name :=
  ⟨["p"], located, by decide, there, (Outline.hides_eq_false_iff name).mp visible⟩

/-- What is shown has a node, which is called by its path. -/
theorem exists_knotted_node (p : Path) (names : List String) (shown : knotted.Shown p names)
    (forest : List Outline) (outlined : knotted.outline p = .ok forest) :
    ∃ node ∈ nodesAt names forest, node.path = p.under names := by
  obtain ⟨node, once⟩ :=
    (nodesAt_outline_iff knotted_isTree names (isDir_of_shown shown) outlined).mpr shown
  have member : node ∈ nodesAt names forest := once ▸ List.mem_singleton.mpr rfl
  exact ⟨node, member, (isNode_of_outline knotted_isTree outlined names member).2.path⟩

/-- An editor that has a project open by a path. -/
def openBy (p : Path) : Editor := { project := some (.make "p" p 0) }

/-- The file of the project is admitted, and what is shown behind a link out of it has passed a
link that leads out. -/
theorem knotted_seen : ∃ forest file secret, knotted.outline ⟨"/p"⟩ = .ok forest ∧
    file ∈ nodesAt ["a.txt"] forest ∧
    (openBy ⟨"/p"⟩).contained knotted file.path = .ok ⟨"/p/a.txt"⟩ ∧
    secret ∈ nodesAt ["link", "secret.txt"] forest ∧
    knotted.canonical secret.path = .ok ⟨"/out/secret.txt"⟩ ∧
    knotted.PassesLink forest [] ["link", "secret.txt"] fun out =>
      ¬(Path.mk "/p").components <+: out.components := by
  have top : knotted.locate true ⟨"/p"⟩ = .ok ["p"] := by decide +kernel
  obtain ⟨forest, outlined⟩ := exists_outline (d := knotted) (p := ⟨"/p"⟩) fun _ => by decide +kernel
  obtain ⟨file, found, path⟩ := exists_knotted_node _ ["a.txt"]
    (.entry (knotted_lists _ "a.txt" top (by decide) (by decide))) forest outlined
  have lists : knotted.Lists (Path.child ⟨"/p"⟩ "link") "secret.txt" :=
    ⟨["out"], by decide +kernel, by decide, by decide,
      (Outline.hides_eq_false_iff _).mp (by decide)⟩
  obtain ⟨secret, behind, way⟩ := exists_knotted_node _ ["link", "secret.txt"]
    (.deeper (knotted_lists _ "link" top (by decide) (by decide)) (.entry lists)) forest
    outlined
  obtain ⟨l, formed, -, -, -, admits⟩ := outline_stays_inside knotted_isTree outlined _ file found
  obtain ⟨l', formed', -, inside, -⟩ := outline_stays_inside knotted_isTree outlined _ secret behind
  have root : knotted.canonical ⟨"/p"⟩ = .ok ⟨"/p"⟩ := by decide +kernel
  have first : knotted.canonical file.path = .ok ⟨"/p/a.txt"⟩ := by
    rw [path]
    decide +kernel
  have second : knotted.canonical secret.path = .ok ⟨"/out/secret.txt"⟩ := by
    rw [way]
    decide +kernel
  rw [root] at formed formed'
  have formed := Except.ok.inj formed
  have formed' := Except.ok.inj formed'
  rw [← formed] at admits
  rw [← formed'] at inside
  refine ⟨forest, file, secret, outlined, found, ?_, behind, second, ?_⟩
  · exact (admits (openBy ⟨"/p"⟩) _ rfl rfl (by decide) _).mpr ⟨first, by decide⟩
  · exact (inside _ second).1.resolve_left (by decide)

/-- The first link is shown and refused, and the second is shown in itself. Where the project is
opened by a relative path, even its own file is refused. -/
theorem knotted_leaves : ∃ forest link loop again, knotted.outline ⟨"/p"⟩ = .ok forest ∧
    knotted.canonical ⟨"/p"⟩ = .ok ⟨"/p"⟩ ∧
    (link ∈ nodesAt ["link"] forest ∧ knotted.canonical link.path = .ok ⟨"/out"⟩ ∧
      ¬(Path.mk "/p").components <+: (Path.mk "/out").components ∧
      (openBy ⟨"/p"⟩).contained knotted link.path =
        .error (.refused (.outsideProject ⟨"/p/link"⟩))) ∧
    (loop ∈ nodesAt ["loop"] forest ∧ knotted.canonical loop.path = .ok ⟨"/p"⟩ ∧
      again ∈ nodesAt ["loop", "loop"] forest ∧ knotted.canonical again.path = .ok ⟨"/p"⟩) ∧
    ∃ forest' file, knotted.outline ⟨"p"⟩ = .ok forest' ∧ file ∈ nodesAt ["a.txt"] forest' ∧
      (openBy ⟨"p"⟩).contained knotted file.path = .error (.notFound ⟨"/p/p/a.txt"⟩) := by
  obtain ⟨top, top', ring⟩ : knotted.locate true ⟨"/p"⟩ = .ok ["p"] ∧
      knotted.locate true ⟨"p"⟩ = .ok ["p"] ∧
      knotted.locate true (Path.child ⟨"/p"⟩ "loop") = .ok ["p"] := by
    decide +kernel
  obtain ⟨forest, outlined⟩ := exists_outline (d := knotted) (p := ⟨"/p"⟩) fun _ => by decide +kernel
  obtain ⟨forest', outlined'⟩ := exists_outline (d := knotted) (p := ⟨"p"⟩) fun _ => by decide +kernel
  have loops := knotted_lists _ "loop" top (by decide) (by decide)
  obtain ⟨link, linkShown, linkPath⟩ := exists_knotted_node _ ["link"]
    (.entry (knotted_lists _ "link" top (by decide) (by decide))) forest outlined
  obtain ⟨loop, loopShown, loopPath⟩ := exists_knotted_node _ ["loop"] (.entry loops)
    forest outlined
  obtain ⟨again, againShown, againPath⟩ := exists_knotted_node _ ["loop", "loop"]
    (.deeper loops (.entry (knotted_lists _ "loop" ring (by decide) (by decide))))
    forest outlined
  obtain ⟨file, fileShown, filePath⟩ := exists_knotted_node _ ["a.txt"]
    (.entry (knotted_lists _ "a.txt" top' (by decide) (by decide))) forest' outlined'
  refine ⟨forest, link, loop, again, outlined, by decide +kernel, ⟨linkShown, ?_, by decide, ?_⟩,
    ⟨loopShown, ?_, againShown, ?_⟩, forest', file, outlined', fileShown, ?_⟩
  · rw [linkPath]
    decide +kernel
  · rw [linkPath]
    decide +kernel
  · rw [loopPath]
    decide +kernel
  · rw [againPath]
    decide +kernel
  · rw [filePath]
    decide +kernel

end Editor

end Workbench
