import Workbench.Disk.Trace
import Workbench.Error
import Workbench.Path.Basic
/-!
# Paths from outside

Paths that a user types are expanded and, where something is there, made canonical. Paths that a
request brings are resolved below a root: the answer is canonical and lies inside the canonical
root, whatever dots and links the request went through.
-/
namespace Workbench

/-- A local path that a user typed. -/
structure UserPath where
  expanded : Path
  canonical? : Option Path
  deriving DecidableEq, Repr

namespace UserPath

/-- Beginnings of texts that name something other than a local directory. -/
def remoteMarks : List String :=
  ["\\\\", "ssh://", "sftp://", "smb://", "nfs://", "http://", "https://"]

/-- The path that a user's text stands for. Nothing needs to be there. -/
def ofInput (d : Disk) (home : Option String) (input : String) : Outcome UserPath :=
  let trimmed := Text.trim input
  if trimmed = "" then .error (.refused .emptyPath)
  else if remoteMarks.any fun mark => mark.toList.isPrefixOf trimmed.toList then
    .error (.refused (.remotePath trimmed))
  else
    let expanded := Path.expandHome home trimmed
    .ok ⟨expanded, (d.canonical expanded).toOption⟩

/-- The canonical path, or the expanded one where nothing is there. -/
def path (u : UserPath) : Path := u.canonical?.getD u.expanded

def directory (u : UserPath) (d : Disk) : Outcome Path :=
  if !d.isThere u.expanded then .error (.notFound u.expanded)
  else if !d.isDir u.expanded then .error (.refused (.notDirectory u.expanded))
  else .ok u.path

end UserPath

namespace Serve

/-- What a request path leads to. -/
inductive Resolved where
  | file (p : Path)
  | directory (p : Path)
  | missing
  deriving DecidableEq, Repr

/-- Whether a canonical path is the canonical path `root` or lies below it. -/
def isWithin (root candidate : Path) : Bool := candidate.startsWith root

def relative (request : String) : Path :=
  ⟨String.ofList (request.toList.dropWhile fun c => c == '/' || c == '\\')⟩

/-- What a request path leads to below a root. What lies outside is missing, whether it is
there or not. -/
def resolveWithin (d : Disk) (root : Path) (request : String) : Resolved :=
  match d.canonical root with
  | .error _ => .missing
  | .ok root =>
    match d.canonical (root.join (relative request)) with
    | .error _ => .missing
    | .ok p =>
      -- both paths are canonical, so that their components decide
      if !isWithin root p then .missing
      else if d.isDir p then .directory p
      else .file p

end Serve

end Workbench
