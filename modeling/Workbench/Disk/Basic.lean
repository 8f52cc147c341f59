import Workbench.Disk.Fault
/-!
# The disk

A disk is a list of entries, each at a location: the names that lead to it from the root. The
order of the list is the order in which a directory is read. Symbolic links are entries whose
target is followed while a path is traced.
-/
namespace Workbench

abbrev Location := List String

/-- Contents are compared byte by byte. -/
instance (priority := high) decidableEqContent : DecidableEq ByteArray := ByteArray.instDecidableEq

/-- What stands at a location. -/
inductive Entry where
  | file (content : ByteArray) (runnable : Bool)
  | directory
  | link (target : Path)
  deriving DecidableEq

/-- A file system and the working directory of the program that uses it. -/
structure Disk where
  entries : List (Location × Entry)
  workDir : Location

namespace Location

def path (l : Location) : Path :=
  ⟨String.ofList ('/' :: Text.joinWith ['/'] (l.map String.toList))⟩

def isWithin (root l : Location) : Bool := root.isPrefixOf l

end Location

namespace Disk

/-- The entry at a location. The root is always a directory. -/
def get? (d : Disk) (l : Location) : Option Entry :=
  if l = [] then some .directory else d.entries.lookup l

/-- Entries with the one at a location replaced, or added at the end. -/
def putIn (l : Location) (e : Entry) : List (Location × Entry) → List (Location × Entry)
  | [] => [(l, e)]
  | (k, old) :: rest => if k = l then (l, e) :: rest else (k, old) :: putIn l e rest

def put (d : Disk) (l : Location) (e : Entry) : Disk :=
  { d with entries := putIn l e d.entries }

def erase (d : Disk) (l : Location) : Disk :=
  { d with entries := d.entries.filter fun (k, _) => k ≠ l }

def eraseTree (d : Disk) (l : Location) : Disk :=
  { d with entries := d.entries.filter fun (k, _) => !l.isWithin k }

def eraseBelow (d : Disk) (l : Location) : Disk :=
  { d with entries := d.entries.filter fun (k, _) => k = l || !l.isWithin k }

def isDirAt (d : Disk) (l : Location) : Bool := d.get? l == some .directory

/-- The name of an entry of the directory `dir`, read off its location. -/
def nameIn? : Location → Location → Option String
  | [], [name] => some name
  | a :: dir, b :: l => if a = b then nameIn? dir l else none
  | _, _ => none

def namesAt (d : Disk) (dir : Location) : List String :=
  d.entries.filterMap fun (l, _) => nameIn? dir l

def depth (d : Disk) : Nat := d.entries.foldl (fun n (l, _) => max n l.length) 0

/-- Every entry but the root lies in a directory, has a proper name and is listed once. -/
structure WellFormed (d : Disk) : Prop where
  keys_nodup : (d.entries.map Prod.fst).Nodup
  no_root : [] ∉ d.entries.map Prod.fst
  parents : ∀ l name, (d.get? (l ++ [name])).isSome → d.get? l = some .directory
  names : ∀ l name, (d.get? (l ++ [name])).isSome →
    name ≠ "" ∧ name ≠ "." ∧ name ≠ ".." ∧ '/' ∉ name.toList ∧ Char.ofNat 0 ∉ name.toList ∧
      name.utf8ByteSize ≤ 255
  links : ∀ l target, d.get? l = some (.link target) → target.text ≠ ""
  workDir_is_dir : d.get? d.workDir = some .directory

end Disk

end Workbench
