import Workbench.Disk.Walk
import Workbench.Text.LowerCase
/-!
# Sources

The scripts and style sheets of a project, and the order in which scripts are put together. The
order goes by file name alone: what mounts the view comes last, after what it may refer to.
-/
namespace Workbench.Bundle

def scriptExtensions : List String := ["js", "jsx", "ts", "tsx"]

def styleExtensions : List String := ["css"]

/-- Whether a search for sources looks at an entry: hidden directories are passed over. -/
def looksInto (name : String) (entry : Entry) : Bool :=
  !(entry = .directory && name.toList.head? == some '.')

def hasExtension (extensions : List String) (p : Path) : Bool :=
  p.fileExtension?.any extensions.contains

/-- The regular files that a search for sources meets, in the order of the walk. -/
def filesBelow (d : Disk) (src : Path) : Outcome (List Path) := do
  let found ← (d.walk looksInto src).mapError (Error.io src)
  return found.filterMap fun b => match b.entry with
    | .file _ _ => some (b.pathFrom src)
    | _ => none

/-- The scripts and the style sheets below a directory, each in the order of the walk. -/
def discoverSources (d : Disk) (src : Path) : Outcome (List Path × List Path) := do
  let files ← filesBelow d src
  return (files.filter (hasExtension scriptExtensions), files.filter (hasExtension styleExtensions))

/-- The place of a script in the bundle, by its file name in lower case: entry points come
late, and the one that mounts the view last. -/
def scriptPriority (p : Path) : Nat :=
  let name := Text.lower (p.fileName?.getD "")
  -- a name may hold several of the words, and the latest place counts
  if Text.contains name "main" then 3
  else if Text.contains name "app" then 2
  else if Text.contains name "index" then 1
  else 0

/-- Scripts by priority, those of one priority in the order given. -/
def orderScripts (scripts : List Path) : List Path :=
  scripts.mergeSort fun a b => scriptPriority a ≤ scriptPriority b

/-- How a source is called in the bundle: its path below the source directory, with slashes. -/
def label (src p : Path) : String :=
  String.ofList (((p.relativeTo? src).getD p).text.toList.map fun c => if c = '\\' then '/' else c)

end Workbench.Bundle
