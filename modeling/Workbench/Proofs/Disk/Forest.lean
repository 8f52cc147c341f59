import Workbench.Proofs.Disk.Outline

/-! The forest that an outline is. Each node is told by the names that lead to it from the top, and
the nodes of one level are the shown entries of one directory. What holds of a level holds of the
whole forest, by induction on the names. -/
namespace Workbench

namespace Outline

def name : Outline → String
  | .node name _ _ _ => name

def path : Outline → Path
  | .node _ path _ _ => path

def isDirectory : Outline → Bool
  | .node _ _ isDirectory _ => isDirectory

def children : Outline → List Outline
  | .node _ _ _ children => children

/-- The nodes that names lead to from the top of a forest, each as often as it is there. -/
def nodesAt : (names : List String) → (forest : List Outline) → List Outline
  | [], _ => []
  | name :: rest, forest =>
    (forest.filter (·.name = name)).flatMap fun top =>
      if rest = [] then [top] else nodesAt rest top.children

/-- One node of a level comes before another: directories first, then by name. -/
def Before (a b : Outline) : Prop :=
  a.isDirectory = true ∧ b.isDirectory = false ∨ a.isDirectory = b.isDirectory ∧ a.name < b.name

/-- A name that is shown: no dot stands in front, and it is not left behind by a build. -/
def IsVisible (name : String) : Prop :=
  name.toList.head? ≠ some '.' ∧ name ≠ "node_modules" ∧ name ≠ "build" ∧ name ≠ "dist"

theorem hides_eq_false_iff (name : String) : hides name = false ↔ IsVisible name := by
  simp [hides, excludedNames, IsVisible]

theorem nodesAt_singleton (name : String) (forest : List Outline) :
    nodesAt [name] forest = forest.filter (·.name = name) := by
  simp [nodesAt]

theorem nodesAt_cons (name : String) (rest : List String) (forest : List Outline)
    (deeper : rest ≠ []) : nodesAt (name :: rest) forest =
      (forest.filter (·.name = name)).flatMap fun top => nodesAt rest top.children := by
  simp [nodesAt, deeper]

@[simp] theorem nodesAt_empty (names : List String) : nodesAt names [] = [] := by
  cases names <;> rfl

/-- What lies deeper lies below a node on the way. -/
theorem nodesAt_append (front rest : List String) (forest : List Outline) (nonempty : front ≠ [])
    (deeper : rest ≠ []) : nodesAt (front ++ rest) forest =
      (nodesAt front forest).flatMap fun node => nodesAt rest node.children := by
  induction front generalizing forest with
  | nil => exact absurd rfl nonempty
  | cons name front ih =>
    rw [List.cons_append, nodesAt_cons name _ forest (by simp [deeper])]
    by_cases last : front = []
    · rw [last, List.nil_append, nodesAt_singleton]
    · rw [nodesAt_cons name front forest last, List.flatMap_assoc]
      exact List.flatMap_congr fun top _ => ih top.children last

/-- A node has one above it for each of the names that lead to it. -/
theorem exists_mem_nodesAt (front rest : List String) (forest : List Outline)
    (nonempty : front ≠ []) (node : Outline) (member : node ∈ nodesAt (front ++ rest) forest) :
    ∃ above, above ∈ nodesAt front forest := by
  by_cases last : rest = []
  · rw [last, List.append_nil] at member
    exact ⟨node, member⟩
  · rw [nodesAt_append front rest forest nonempty last] at member
    obtain ⟨above, found, -⟩ := List.mem_flatMap.mp member
    exact ⟨above, found⟩

/-- Where no name stands twice, a name leads to one node. -/
theorem exists_filter_eq_singleton (forest : List Outline)
    (distinct : (forest.map Outline.name).Nodup) (x : String)
    (listed : x ∈ forest.map Outline.name) :
    ∃ node, forest.filter (·.name = x) = [node] := by
  obtain ⟨node, member, rfl⟩ := List.mem_map.mp listed
  obtain ⟨front, back, rfl⟩ := List.append_of_mem member
  rw [List.map_append, List.map_cons, List.nodup_append] at distinct
  obtain ⟨-, later, earlier⟩ := distinct
  have first : front.filter (·.name = node.name) = [] := by
    rw [List.filter_eq_nil_iff]
    intro other member same
    exact earlier _ (List.mem_map_of_mem member) _ List.mem_cons_self (of_decide_eq_true same)
  have last : back.filter (·.name = node.name) = [] := by
    rw [List.filter_eq_nil_iff]
    intro other member same
    exact (List.nodup_cons.mp later).1 (List.mem_map.mpr ⟨other, member, of_decide_eq_true same⟩)
  exact ⟨node, by simp [first, last]⟩

end Outline

namespace Disk

open Outline (IsVisible Before nodesAt)

variable {d : Disk} {p : Path} {levels : Nat} {forest : List Outline} {node : Outline}

theorem readNames_eq_ok_iff (p : Path) (names : List String) : d.readNames p = .ok names ↔
    ∃ l, d.locate true p = .ok l ∧ d.get? l = some .directory ∧ names = d.namesAt l := by
  unfold readNames
  cases d.locate true p with
  | error fault => simp [bind, Except.bind]
  | ok l =>
    cases found : d.get? l with
    | none => simp [bind, Except.bind, found]
    | some e => cases e <;> simp [bind, Except.bind, found, eq_comm]

/-- Where results tell what they were made of, a traversal has one for each, in order. -/
theorem map_of_mapM_eq_ok {ε α β : Type} (f : α → Except ε β) (g : β → α)
    (back : ∀ x y, f x = .ok y → g y = x) (xs : List α) (ys : List β)
    (made : xs.mapM f = .ok ys) : ys.map g = xs ∧ ∀ y ∈ ys, f (g y) = .ok y := by
  induction xs generalizing ys with
  | nil =>
    cases made
    simp
  | cons x xs ih =>
    rw [List.mapM_cons] at made
    cases first : f x with
    | error e => simp [first, bind, Except.bind] at made
    | ok y =>
      cases rest : xs.mapM f with
      | error e => simp [first, rest, bind, Except.bind] at made
      | ok more =>
        simp only [first, rest, bind, Except.bind, pure, Except.pure] at made
        cases made
        obtain ⟨same, each⟩ := ih more rest
        rw [List.map_cons, same, back x y first]
        refine ⟨rfl, ?_⟩
        rw [List.forall_mem_cons, back x y first]
        exact ⟨first, each⟩

/-- A path leads to a directory, and an outline of that shows the name. -/
def Lists (d : Disk) (p : Path) (name : String) : Prop :=
  ∃ l, d.locate true p = .ok l ∧ d.get? l = some .directory ∧ (d.get? (l ++ [name])).isSome ∧
    IsVisible name

/-- Names that lead down from a path through shown directories to a shown entry. -/
inductive Shown (d : Disk) : Path → List String → Prop
  | entry {p : Path} {name : String} : d.Lists p name → Shown d p [name]
  | deeper {p : Path} {name : String} {rest : List String} :
      d.Lists p name → Shown d (p.child name) rest → Shown d p (name :: rest)

theorem isDir_of_shown {names : List String} (shown : d.Shown p names) : d.isDir p = true := by
  cases shown with
  | entry lists | deeper lists =>
    obtain ⟨l, located, directory, -⟩ := lists
    exact (isDir_iff p).mpr ⟨l, located, directory⟩

theorem isProper_of_shown (tree : d.IsTree) (names : List String) (shown : d.Shown p names) :
    Location.IsProper names := by
  induction shown with
  | @entry p name lists =>
    obtain ⟨l, -, -, there, -⟩ := lists
    exact Location.isProper_singleton name (tree.isName l name there)
  | @deeper p name rest lists _ ih =>
    obtain ⟨l, -, -, there, -⟩ := lists
    rw [Location.IsProper, List.forall_mem_cons]
    exact ⟨tree.isName l name there, ih⟩

/-- What is shown below a path is shown below each directory on the way. -/
theorem Shown.drop (front rest : List String) (deeper : rest ≠ [])
    (shown : d.Shown p (front ++ rest)) : d.Shown (p.under front) rest := by
  induction front generalizing p with
  | nil => exact shown
  | cons name front ih =>
    rw [List.cons_append] at shown
    generalize whole : front ++ rest = more at shown
    cases shown with
    | entry => exact absurd (List.append_eq_nil_iff.mp whole).2 deeper
    | deeper lists shown =>
      subst whole
      exact ih shown

/-- The nodes of one level are the shown entries of one directory. -/
structure IsLevel (d : Disk) (levels : Nat) (p : Path) (forest : List Outline) : Prop where
  listed : ∀ name, name ∈ forest.map Outline.name ↔ d.Lists p name
  distinct : (forest.map Outline.name).Nodup
  ordered : forest.Pairwise Before
  path : ∀ node ∈ forest, node.path = p.child node.name
  marked : ∀ node ∈ forest, node.isDirectory = d.isDir node.path
  leaf : ∀ node ∈ forest, node.isDirectory = false → node.children = []
  deeper : ∀ node ∈ forest, node.isDirectory = true →
    d.outlineLevel levels node.path = .ok node.children

theorem distinct_shownIn (tree : d.IsTree) (p : Path) (l : Location) :
    ((d.shownIn p (d.namesAt l)).map Prod.fst).Nodup := by
  rw [shownIn, ((List.mergeSort_perm _ _).map _).nodup_iff, List.map_map]
  exact (List.map_id _).symm ▸ (nodup_namesAt tree l).filter _

theorem pairwise_shownIn (p : Path) (names : List String) :
    (d.shownIn p names).Pairwise fun a b => Outline.precedes a b = true :=
  List.pairwise_mergeSort Outline.precedes_trans Outline.precedes_total _

theorem mem_names_shownIn_iff {l : Location} (located : d.locate true p = .ok l)
    (directory : d.get? l = some .directory) (name : String) :
    name ∈ (d.shownIn p (d.namesAt l)).map Prod.fst ↔ d.Lists p name := by
  rw [List.mem_map]
  constructor
  · rintro ⟨⟨_, marked⟩, shown, rfl⟩
    obtain ⟨there, visible, -⟩ := (mem_shownIn p _ _).mp shown
    exact ⟨l, located, directory, (mem_namesAt l _).mp there,
      (Outline.hides_eq_false_iff _).mp visible⟩
  · rintro ⟨k, located', -, there, visible⟩
    rw [located] at located'
    cases located'
    refine ⟨(name, d.isDir (p.child name)), (mem_shownIn p _ _).mpr ⟨?_, ?_, rfl⟩, rfl⟩
    · exact (mem_namesAt l name).mpr there
    · exact (Outline.hides_eq_false_iff name).mpr visible

/-- No two entries of a directory have one name, so that one of two comes first. -/
theorem before_of_precedes (a b : Outline) (other : a.name ≠ b.name)
    (first : Outline.precedes (a.name, a.isDirectory) (b.name, b.isDirectory) = true) :
    Before a b := by
  rcases (Outline.precedes_iff _ _).mp first with ⟨same, le⟩ | ⟨directory, file⟩
  · refine .inr ⟨same, ?_⟩
    by_contra not
    exact other (String.le_antisymm le (String.not_lt.mp not))
  · exact .inl ⟨directory, file⟩

/-- A node is made of the entry that it stands for and, if that is a directory, of its level. -/
theorem eq_of_node_made (entry : String × Bool)
    (made : (do
      let children ← if entry.2 then d.outlineLevel levels (p.child entry.1) else .ok []
      return .node entry.1 (p.child entry.1) entry.2 children : Outcome Outline) = .ok node) :
    (node.name, node.isDirectory) = entry ∧ node.path = p.child node.name ∧
      (node.isDirectory = false → node.children = []) ∧
      (node.isDirectory = true → d.outlineLevel levels node.path = .ok node.children) := by
  obtain ⟨name, isDirectory⟩ := entry
  cases isDirectory with
  | false =>
    cases made
    exact ⟨rfl, rfl, fun _ => rfl, fun marked => Bool.noConfusion marked⟩
  | true =>
    cases inner : d.outlineLevel levels (p.child name) with
    | error e => simp [inner, bind, Except.bind] at made
    | ok children =>
      simp only [inner, if_true, bind, Except.bind, pure, Except.pure] at made
      cases made
      exact ⟨rfl, rfl, fun marked => Bool.noConfusion marked, fun _ => inner⟩

theorem isLevel_of_outlineLevel (tree : d.IsTree)
    (made : d.outlineLevel (levels + 1) p = .ok forest) : d.IsLevel levels p forest := by
  rw [outlineLevel] at made
  cases read : d.readNames p with
  | error fault => simp [read, Except.mapError, bind, Except.bind] at made
  | ok names =>
    obtain ⟨l, located, directory, rfl⟩ := (readNames_eq_ok_iff p names).mp read
    simp only [read, Except.mapError, bind, Except.bind] at made
    obtain ⟨keys, each⟩ := map_of_mapM_eq_ok _ (fun node : Outline => (node.name, node.isDirectory))
      (fun entry node made => (eq_of_node_made entry made).1) _ _ made
    have each (node : Outline) (member : node ∈ forest) :=
      (eq_of_node_made _ (each node member)).2
    have names : forest.map Outline.name = (d.shownIn p (d.namesAt l)).map Prod.fst := by
      rw [← keys, List.map_map]
      rfl
    have distinct : (forest.map Outline.name).Nodup := names ▸ distinct_shownIn tree p l
    constructor
    · intro name
      rw [names]
      exact mem_names_shownIn_iff located directory name
    · exact distinct
    · -- what was sorted by name and kind is in strict order, as no name is there twice
      have sorted := pairwise_shownIn (d := d) p (d.namesAt l)
      rw [← keys, List.pairwise_map] at sorted
      rw [List.Nodup, List.pairwise_map] at distinct
      exact (distinct.and sorted).imp fun {a b} both => before_of_precedes a b both.1 both.2
    · exact fun node member => (each node member).1
    · intro node member
      have shown : (node.name, node.isDirectory) ∈ d.shownIn p (d.namesAt l) :=
        keys ▸ List.mem_map_of_mem member
      rw [(each node member).1]
      exact ((mem_shownIn p _ _).mp shown).2.2
    · exact fun node member => (each node member).2.1
    · exact fun node member => (each node member).2.2

/-- What is shown has one node. -/
theorem exists_nodesAt_of_shown (tree : d.IsTree) (names : List String) (shown : d.Shown p names)
    (made : d.outlineLevel levels p = .ok forest) (within : names.length ≤ levels) :
    ∃ node, nodesAt names forest = [node] := by
  -- the induction is on the names, which go down one level each
  induction shown generalizing levels forest with
  | @entry p name lists =>
    obtain ⟨levels, rfl⟩ := Nat.exists_eq_add_of_le' within
    have level := isLevel_of_outlineLevel tree made
    rw [Outline.nodesAt_singleton]
    exact Outline.exists_filter_eq_singleton forest level.distinct name
      ((level.listed name).mpr lists)
  | @deeper p name rest lists shown ih =>
    obtain ⟨levels, rfl⟩ := Nat.exists_eq_add_of_le' (Nat.le_of_add_left_le within)
    have level := isLevel_of_outlineLevel tree made
    obtain ⟨top, here⟩ := Outline.exists_filter_eq_singleton forest level.distinct name
      ((level.listed name).mpr lists)
    obtain ⟨member, named⟩ := List.mem_filter.mp (here ▸ List.mem_singleton.mpr rfl)
    have path : top.path = p.child name := by
      rw [level.path top member, of_decide_eq_true named]
    have directory : top.isDirectory = true := by
      rw [level.marked top member, path]
      exact isDir_of_shown shown
    have inner := level.deeper top member directory
    rw [path] at inner
    obtain ⟨node, found⟩ := ih inner (Nat.le_of_succ_le_succ within)
    refine ⟨node, ?_⟩
    rw [Outline.nodesAt_cons name rest forest (by cases shown <;> simp), here,
      List.flatMap_singleton, found]

/-- What a node tells of the entry that it stands for. -/
structure IsNode (d : Disk) (levels : Nat) (p : Path) (names : List String) (node : Outline) :
    Prop where
  shown : d.Shown p names
  named : names.getLast? = some node.name
  path : node.path = p.under names
  marked : node.isDirectory = d.isDir node.path
  leaf : node.isDirectory = false → node.children = []
  deeper : ∃ rest, levels = rest + names.length ∧
    (node.isDirectory = true → d.outlineLevel rest node.path = .ok node.children)

/-- A node stands for what is shown. -/
theorem isNode_of_mem_nodesAt (tree : d.IsTree) (names : List String)
    (made : d.outlineLevel levels p = .ok forest) (member : node ∈ nodesAt names forest) :
    d.IsNode levels p names node := by
  -- the first name leads to a node of this level, and the rest into the level below that node
  induction names generalizing levels p forest with
  | nil => cases member
  | cons name rest ih =>
    cases levels with
    | zero =>
      rw [outlineLevel] at made
      cases made
      cases member
    | succ levels =>
      have level := isLevel_of_outlineLevel tree made
      have lists (top : Outline) (inside : top ∈ forest.filter (·.name = name)) :
          top ∈ forest ∧ top.name = name ∧ d.Lists p name := by
        obtain ⟨inside, named⟩ := List.mem_filter.mp inside
        have named := of_decide_eq_true named
        exact ⟨inside, named, (level.listed name).mp (named ▸ List.mem_map_of_mem inside)⟩
      by_cases last : rest = []
      · subst last
        rw [Outline.nodesAt_singleton] at member
        obtain ⟨inside, rfl, lists⟩ := lists node member
        constructor
        · exact .entry lists
        · rfl
        · exact level.path node inside
        · exact level.marked node inside
        · exact level.leaf node inside
        · exact ⟨levels, rfl, level.deeper node inside⟩
      · rw [Outline.nodesAt_cons name rest forest last] at member
        obtain ⟨top, inside, below⟩ := List.mem_flatMap.mp member
        obtain ⟨here, rfl, lists⟩ := lists top inside
        cases directory : top.isDirectory with
        | false =>
          -- nothing lies below what is no directory
          rw [level.leaf top here directory, Outline.nodesAt_empty] at below
          cases below
        | true =>
          have inner := level.deeper top here directory
          rw [level.path top here] at inner
          have node := ih inner below
          constructor
          · exact .deeper lists node.shown
          · rw [List.getLast?_cons_of_ne_nil last, node.named]
          · exact node.path
          · exact node.marked
          · exact node.leaf
          · obtain ⟨deeper, same, children⟩ := node.deeper
            exact ⟨deeper, by rw [same, List.length_cons, Nat.add_assoc], children⟩

/-- What a forest has below a node: each child is called by its name, which is joined to the path of
the node, and the children come in order. -/
structure IsParent (forest : List Outline) (names : List String) (node : Outline) : Prop where
  children : ∀ name, nodesAt (names ++ [name]) forest = node.children.filter (·.name = name)
  path : ∀ child ∈ node.children, child.path = node.path.child child.name
  ordered : node.children.Pairwise Before

section

variable (tree : d.IsTree) (names : List String) (made : d.outlineLevel levels p = .ok forest)
  (member : node ∈ nodesAt names forest)
include tree made member

/-- No two nodes are reached by the same names. -/
theorem nodesAt_eq_singleton : nodesAt names forest = [node] := by
  have isNode := isNode_of_mem_nodesAt tree names made member
  obtain ⟨rest, levels, -⟩ := isNode.deeper
  obtain ⟨other, once⟩ := exists_nodesAt_of_shown tree names isNode.shown made
    (levels ▸ Nat.le_add_left _ _)
  rw [once, List.mem_singleton] at member
  rw [once, member]

theorem isParent_of_mem_nodesAt : IsParent forest names node := by
  have isNode := isNode_of_mem_nodesAt tree names made member
  have once := nodesAt_eq_singleton tree names made member
  have nonempty : names ≠ [] := by
    rintro rfl
    cases member
  -- below a node there is nothing, or another level
  have level : node.children = [] ∨ ∃ levels, d.IsLevel levels node.path node.children := by
    cases marked : node.isDirectory with
    | false => exact .inl (isNode.leaf marked)
    | true =>
      obtain ⟨rest, -, inner⟩ := isNode.deeper
      have inner := inner marked
      cases rest with
      | zero =>
        rw [outlineLevel] at inner
        exact .inl (Except.ok.inj inner).symm
      | succ rest => exact .inr ⟨rest, isLevel_of_outlineLevel tree inner⟩
  constructor
  · intro name
    rw [Outline.nodesAt_append names [name] forest nonempty (by simp), once, List.flatMap_singleton,
      Outline.nodesAt_singleton]
  · rcases level with empty | ⟨levels, level⟩
    · rw [empty]
      intro child below
      cases below
    · exact level.path
  · rcases level with empty | ⟨levels, level⟩
    · rw [empty]
      exact List.Pairwise.nil
    · exact level.ordered

end

/-- An entry below a location with no hidden name on the way to it. -/
structure InSight (d : Disk) (l names : Location) : Prop where
  below : names ≠ []
  there : (d.get? (l ++ names)).isSome
  visible : ∀ name ∈ names, IsVisible name

section

variable {l : Location} (tree : d.IsTree) (located : d.locate true p = .ok l)
  (directory : d.get? l = some .directory)
include tree located

theorem locate_child (name : String) (e : Entry) (found : d.get? (l ++ [name]) = some e)
    (plain : e.IsPlain) : d.locate true (p.child name) = .ok (l ++ [name]) :=
  locate_under tree located [name] e found plain

include directory

/-- Without links an outline shows what is in sight. -/
theorem shown_iff (linkless : ∀ rest target, d.get? (l ++ rest) ≠ some (.link target))
    (names : List String) : d.Shown p names ↔ d.InSight l names := by
  induction names generalizing p l with
  | nil =>
    constructor
    · intro shown
      cases shown
    · exact fun sight => absurd rfl sight.below
  | cons name rest ih =>
    have whole : l ++ [name] ++ rest = l ++ name :: rest := (List.append_cons l name rest).symm
    -- what lies in a directory without links is entered by its own name
    have child (there : (d.get? (l ++ [name])).isSome) :
        d.locate true (p.child name) = .ok (l ++ [name]) := by
      obtain ⟨e, found⟩ := Option.isSome_iff_exists.mp there
      exact locate_child tree located name e found fun target same => linkless _ target (same ▸ found)
    have step (inside : d.get? (l ++ [name]) = some .directory) :
        d.Shown (p.child name) rest ↔ d.InSight (l ++ [name]) rest := by
      apply ih (child (by rw [inside]; rfl)) inside
      intro rest target
      rw [List.append_assoc]
      exact linkless _ target
    constructor
    · intro shown
      cases shown with
      | entry lists =>
        obtain ⟨k, located', -, there, visible⟩ := lists
        rw [located] at located'
        cases located'
        exact ⟨by simp, there, by simpa using visible⟩
      | deeper lists shown =>
        obtain ⟨k, located', -, there, visible⟩ := lists
        rw [located] at located'
        cases located'
        obtain ⟨k, located', inside⟩ := (isDir_iff _).mp (isDir_of_shown shown)
        rw [child there] at located'
        cases located'
        have sight := (step inside).mp shown
        refine ⟨by simp, whole ▸ sight.there, ?_⟩
        rw [List.forall_mem_cons]
        exact ⟨visible, sight.visible⟩
    · rintro ⟨-, there, visible⟩
      rw [List.forall_mem_cons] at visible
      by_cases last : rest = []
      · subst last
        exact .entry ⟨l, located, directory, there, visible.1⟩
      · rw [← whole] at there
        have inside := tree.directory_of_below (l ++ [name]) rest last there
        exact .deeper ⟨l, located, directory, by rw [inside]; rfl, visible.1⟩
          ((step inside).mpr ⟨last, there, visible.2⟩)

end

/-- An outline does not depend on the order in which entries are read. -/
theorem outline_eq_of_same {d' : Disk} (tree : d.IsTree) (tree' : d'.IsTree)
    (work : d'.workDir = d.workDir) (same : ∀ l, d'.get? l = d.get? l) (root : d.IsRoot p) :
    d'.outline p = d.outline p := by
  have part : d.IsPartOf d' := fun l e found => ⟨e, (same l).trans found, .refl e⟩
  have part' : d'.IsPartOf d := fun l e found => ⟨e, (same l).symm.trans found, .refl e⟩
  have located (q : Path) (l : Location) :
      d'.locate true q = .ok l ↔ d.locate true q = .ok l :=
    ⟨locate_mono part' work.symm, locate_mono part work⟩
  have alike : LooksLike d d' := by
    constructor
    · intro q l
      rw [located, same]
    · intro l name _
      rw [same]
    · apply Nat.le_antisymm
      · exact depth_le_of_longer tree' fun l there => ⟨l, by rwa [← same], le_rfl⟩
      · exact depth_le_of_longer tree fun l there => ⟨l, by rwa [same], le_rfl⟩
  exact alike.outline_eq tree tree' root
    (root.of_part part' work.symm fun l _ directory _ => (same l).trans directory)

theorem outline_of_directory (directory : d.isDir p = true) :
    d.outline p = d.outlineLevel d.outlineLevels p := by
  rw [outline, if_pos (isThere_of_isDir directory)]

theorem length_le_depth_of_get? (l : Location) (e : Entry) (found : d.get? l = some e) :
    l.length ≤ d.depth := by
  by_cases root : l = []
  · rw [root]
    exact Nat.zero_le _
  · rw [get?_of_ne l root] at found
    exact length_le_depth l e (mem_entries_of_lookup l e found)

/-- Between two links names lead down, at most as far as the disk is deep. -/
theorem length_le_of_leads (here : Location) (names : List String) (links : Nat) (l : Location)
    (proper : Location.IsProper names) (leads : d.Leads here names links l) :
    names.length + here.length ≤ links * (d.depth + 1) + l.length := by
  -- a name that is no link leads one deeper, and a link may lead back to the top
  induction names generalizing here links with
  | nil =>
    cases leads
    simp
  | cons name rest ih =>
    rw [Location.IsProper, List.forall_mem_cons] at proper
    have above := length_le_depth_of_get? here _ leads.directory_of_cons
    rcases leads.step_cases _ _ _ _ _ (.of_isName name proper.1) with
      ⟨e, -, -, more⟩ | ⟨target, k, -, rfl, more⟩
    · have length := ih (here ++ [name]) links proper.2 more
      simp only [List.length_cons, List.length_append, List.length_nil] at length ⊢
      omega
    · -- the rest goes on from wherever the link leads to
      obtain ⟨mid, m, j, -, second, rfl⟩ := more.split _ target.steps rest
      have length := ih mid j proper.2 second
      simp only [List.length_cons, Nat.add_mul, Nat.one_mul]
      omega

/-- An outline ends where no path leads on, not before. -/
theorem length_le_outlineLevels (tree : d.IsTree) (names : List String) (shown : d.Shown p names) :
    names.length ≤ d.outlineLevels := by
  have proper := isProper_of_shown tree names shown
  rcases List.eq_nil_or_concat' names with rfl | ⟨front, name, rfl⟩
  · exact Nat.zero_le _
  · -- the directory that holds the entry is found through no more links than are followed
    obtain ⟨l, located, directory⟩ :=
      (isDir_iff _).mp (isDir_of_shown (shown.drop front [name] (by simp)))
    obtain ⟨top, rooted, -⟩ := (isDir_iff p).mp (isDir_of_shown shown)
    obtain ⟨-, nonempty, first, -, begins⟩ := leads_of_locate rooted
    obtain ⟨-, -, links, within, leads⟩ := leads_of_locate located
    have above : Location.IsProper front := fun n member => proper n (List.mem_append_left _ member)
    have descends := Path.descends nonempty front above
    rw [startOf, descends.isAbsolute, ← startOf, descends.names] at leads
    obtain ⟨mid, m, k, begun, rest, rfl⟩ := leads.split _ p.names front
    obtain ⟨-, rfl⟩ := begun.unique _ _ _ _ _ _ begins
    have length := length_le_of_leads mid front k l above rest
    have deep := length_le_depth_of_get? l _ directory
    have few : k * (d.depth + 1) ≤ linkLimit * (d.depth + 1) :=
      Nat.mul_le_mul_right _ (le_trans (Nat.le_add_left k m) within)
    rw [List.length_append, List.length_singleton, outlineLevels, Nat.add_mul, Nat.one_mul]
    omega

/-- The outline of a directory has one node for each list of names that is shown, through links or
not, and no others. -/
theorem nodesAt_outline_iff (tree : d.IsTree) (names : List String) (directory : d.isDir p = true)
    (outlined : d.outline p = .ok forest) :
    (∃ node, nodesAt names forest = [node]) ↔ d.Shown p names := by
  rw [outline_of_directory directory] at outlined
  constructor
  · rintro ⟨node, once⟩
    exact (isNode_of_mem_nodesAt tree names outlined (once ▸ List.mem_singleton.mpr rfl)).shown
  · intro shown
    exact exists_nodesAt_of_shown tree names shown outlined
      (length_le_outlineLevels tree names shown)

/-- The outline of a directory without links has one node for each entry in sight, and no others. A
node has the last of its names and the path that these lead to, and is marked as a directory if the
entry is one; only then it has children, which are the nodes of the entries in it. On each level
the nodes come in order, in whatever order the entries are read. -/
theorem outline_exact {l : Location} (tree : d.IsTree) (located : d.locate true p = .ok l)
    (directory : d.get? l = some .directory)
    (linkless : ∀ rest target, d.get? (l ++ rest) ≠ some (.link target)) :
    ∃ forest, d.outline p = .ok forest ∧
      (∀ names, d.InSight l names → ∃ node, nodesAt names forest = [node]) ∧
      (∀ names, ∀ node ∈ nodesAt names forest,
        d.InSight l names ∧ names.getLast? = some node.name ∧ node.path = p.under names ∧
          (node.isDirectory = true ↔ d.get? (l ++ names) = some .directory) ∧
          (node.isDirectory = false → node.children = []) ∧ IsParent forest names node) ∧
      (∀ top ∈ forest, top.path = p.child top.name) ∧ forest.Pairwise Before ∧
      ∀ d' : Disk, d'.IsTree → d'.workDir = d.workDir → (∀ k, d'.get? k = d.get? k) →
        d'.outline p = .ok forest := by
  have isDir : d.isDir p = true := (isDir_iff p).mpr ⟨l, located, directory⟩
  have whole := outline_of_directory isDir
  obtain ⟨forest, made⟩ := exists_outlineLevel (d := d) d.outlineLevels isDir
  have sees := shown_iff tree located directory linkless
  have top : d.IsLevel ((linkLimit + 1) * (d.depth + 1)) p forest := isLevel_of_outlineLevel tree made
  refine ⟨forest, whole.trans made, ?_, ?_, top.path, top.ordered, ?_⟩
  · exact fun names sight => (nodesAt_outline_iff tree names isDir (whole.trans made)).mpr
      ((sees names).mpr sight)
  · -- without links a node's path leads to the entry by its names
    intro names node member
    have isNode := isNode_of_mem_nodesAt tree names made member
    have sight := (sees names).mp isNode.shown
    obtain ⟨e, found⟩ := Option.isSome_iff_exists.mp sight.there
    have place := locate_under tree located names e found fun target same =>
      linkless names target (same ▸ found)
    refine ⟨sight, isNode.named, isNode.path, ?_, isNode.leaf,
      isParent_of_mem_nodesAt tree names made member⟩
    rw [isNode.marked, isNode.path, isDir_iff]
    constructor
    · rintro ⟨k, located', directory⟩
      rw [place] at located'
      cases located'
      exact directory
    · exact fun directory => ⟨_, place, directory⟩
  · intro d' tree' work same
    rw [outline_eq_of_same tree tree' work same fun _ => isDir, whole, made]

/-- A project with a hidden directory, and with what a build left on two levels. -/
def littered : Disk where
  entries :=
    [(["p"], .directory), (["p", "z.txt"], .file "z".toUTF8 false), (["p", ".git"], .directory),
      (["p", ".git", "HEAD"], .file "h".toUTF8 false), (["p", "src"], .directory),
      (["p", "src", "dist"], .directory), (["p", "src", "dist", "a.js"], .file "a".toUTF8 false),
      (["p", "src", "a.ts"], .file "a".toUTF8 false)]
  workDir := []

theorem littered_outline : ∃ forest, littered.outline ⟨"p/"⟩ = .ok forest ∧
    (∃ node, nodesAt ["src", "a.ts"] forest = [node] ∧ node.path = ⟨"p/src/a.ts"⟩ ∧
      node.children = []) ∧
    nodesAt [".git", "HEAD"] forest = [] ∧ nodesAt ["src", "dist", "a.js"] forest = [] := by
  have tree : littered.IsTree := WellFormed.isTree (by decide)
  have linkless := get?_ne_link (d := littered) (by simp [littered])
  obtain ⟨forest, made, complete, sound, -⟩ :=
    outline_exact (p := ⟨"p/"⟩) tree (by decide) (by decide) fun rest => linkless (["p"] ++ rest)
  have hidden (names : List String) (name : String) (inside : name ∈ names)
      (veiled : Outline.hides name = true) : nodesAt names forest = [] := by
    rw [List.eq_nil_iff_forall_not_mem]
    intro node member
    have visible := (sound names node member).1.visible name inside
    rw [← Outline.hides_eq_false_iff, veiled] at visible
    cases visible
  obtain ⟨node, once⟩ := complete ["src", "a.ts"] ⟨by simp, by decide, fun name member =>
    (Outline.hides_eq_false_iff name).mp (by revert name; decide)⟩
  obtain ⟨-, -, path, marked, leaf, -⟩ := sound _ node (once ▸ List.mem_singleton.mpr rfl)
  refine ⟨forest, made, ⟨node, once, ?_, leaf ?_⟩, ?_, ?_⟩
  · rw [path]
    decide
  · rw [← Bool.not_eq_true, marked]
    decide
  · exact hidden _ ".git" (by simp) (by decide)
  · exact hidden _ "dist" (by simp) (by decide)

end Disk

end Workbench
