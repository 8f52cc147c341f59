import Workbench.Disk.Trace
import Workbench.Json.Basic
import Workbench.Json.Printer
/-!
# Projects

A project is a directory with a name. Sources lie in `src`, files that are served as they are
in `public`. Times are in thousandths of a second since 1970.
-/
namespace Workbench

/-- A project. -/
structure Project where
  name : String
  path : Path
  createdAt : Int
  lastModified : Int
  deriving DecidableEq, Repr

namespace Project

def make (name : String) (path : Path) (now : Int) : Project := ⟨name, path, now, now⟩

def ofDir (path : Path) (now : Int) : Project := make (path.fileName?.getD path.text) path now

def srcDir (p : Project) : Path := p.path.child "src"

def publicDir (p : Project) : Path := p.path.child "public"

def outputDir (p : Project) (outDir : String) : Path := p.path.join ⟨outDir⟩

def isThere (p : Project) (d : Disk) : Bool := d.isDir p.path

def memberNames : List String := ["name", "path", "createdAt", "lastModified"]

def toJson (p : Project) : Json :=
  .record
    [("name", .text p.name),
     ("path", .text p.path.text),
     ("createdAt", .whole p.createdAt),
     ("lastModified", .whole p.lastModified)]

def ofJson? (v : Json) : Option Project :=
  match v.fields? memberNames with
  | some [name, path, created, modified] => do
    some ⟨← name.text?, ⟨← path.text?⟩, ← created.int64?, ← modified.int64?⟩
  | _ => none

end Project

end Workbench
