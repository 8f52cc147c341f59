import Workbench.Disk.Walk
/-!
# Outlines

An outline is the tree of files that an editor shows for a directory. Hidden entries and the
results of builds are left out. On each level directories come before files, both by name. A
link to a directory counts as a directory.
-/
namespace Workbench

/-- An entry of an outline. -/
inductive Outline where
  | node (name : String) (path : Path) (isDirectory : Bool) (children : List Outline)

namespace Outline

/-- Names that no outline shows: what builds and package managers leave behind. -/
def excludedNames : List String := ["node_modules", "build", "dist"]

def hides (name : String) : Bool := name.toList.head? == some '.' || excludedNames.contains name

/-- Whether one entry comes no later than another: directories first, then by name. -/
def precedes (a b : String × Bool) : Bool :=
  if a.2 = b.2 then a.1 ≤ b.1 else a.2

end Outline

namespace Disk

/-- The shown entries of a directory in order, each with whether it is a directory. -/
def shownIn (d : Disk) (dir : Path) (names : List String) : List (String × Bool) :=
  ((names.filter fun name => !Outline.hides name).map fun name =>
    (name, d.isDir (dir.child name))).mergeSort Outline.precedes

/-- The outline of a directory, at most `levels` directories deep. -/
def outlineLevel (d : Disk) : (levels : Nat) → Path → Outcome (List Outline)
  | 0, _ => .ok []
  | levels + 1, dir => do
    let names ← (d.readNames dir).mapError (Error.ofFault dir)
    (d.shownIn dir names).mapM fun (name, isDirectory) => do
      let p := dir.child name
      let children ← if isDirectory then d.outlineLevel levels p else .ok []
      return .node name p isDirectory children

/-- How deep an outline can go: between two links a path passes at most as many names as the
disk is deep. -/
def outlineLevels (d : Disk) : Nat := (linkLimit + 1) * (d.depth + 1) + 1

/-- The outline of a directory; empty where nothing is. -/
def outline (d : Disk) (root : Path) : Outcome (List Outline) :=
  if d.isThere root then d.outlineLevel d.outlineLevels root else .ok []

end Disk

end Workbench
