import Workbench.Disk.Edit
/-!
# Walking directory trees

A walk lists what is below a directory: a directory before its entries, and the entries of one
directory by name. Links are listed and not followed, except for the one that the walk may start
from.
-/
namespace Workbench

def sortNames (names : List String) : List String := names.mergeSort fun a b => a ≤ b

/-- An entry below a directory: the names that lead to it from there, and the entry. -/
structure Below where
  names : List String
  entry : Entry

namespace Below

def pathFrom (root : Path) (b : Below) : Path := b.names.foldl Path.child root

def name (b : Below) : String := b.names.getLast?.getD ""

end Below

namespace Disk

/-- What is below a directory, at most `levels` names deep; entries that `enter` refuses are
left out with all that is below them. -/
def below (d : Disk) (enter : String → Entry → Bool) :
    (levels : Nat) → Location → List Below
  | 0, _ => []
  | levels + 1, dir =>
    (sortNames (d.namesAt dir)).flatMap fun name =>
      match d.get? (dir ++ [name]) with
      | none => []
      | some entry =>
        if enter name entry then
          ⟨[name], entry⟩ ::
            (if entry = .directory then
              (d.below enter levels (dir ++ [name])).map fun b => ⟨name :: b.names, b.entry⟩
            else [])
        else []

/-- A walk from a path: the entry at the path itself under no names, then all below it. -/
def walk (d : Disk) (enter : String → Entry → Bool) (root : Path) : Except Fault (List Below) := do
  let fail := Except.mapError (Fault.walking root)
  let l ← fail (d.locate false root)
  match d.get? l with
  | none => .error (.walking root .missing)
  | some (.link target) =>
    -- the link is listed as what it is, and its target is walked
    let l ← fail (d.locate true root)
    return ⟨[], .link target⟩ :: (if d.isDirAt l then d.below enter d.depth l else [])
  | some .directory => return ⟨[], .directory⟩ :: d.below enter d.depth l
  | some entry => return [⟨[], entry⟩]

/-- How many regular files a walk meets; none if it cannot start. -/
def countFiles (d : Disk) (root : Path) : Nat :=
  match d.walk (fun _ _ => true) root with
  | .ok found => found.countP fun b => match b.entry with
    | .file _ _ => true
    | _ => false
  | .error _ => 0

end Disk

end Workbench
