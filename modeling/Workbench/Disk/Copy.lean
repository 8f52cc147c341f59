import Workbench.Disk.Walk
/-!
# Copying directory trees

Every file below a directory is copied to the same place below another. The entries of a
directory are read when the copy enters it, so a target inside the source is met as it is by
then. A path that is too long for the system ends the copy.
-/
namespace Workbench.Disk

def pathLimit : Nat := 4096

def snapshot (d : Disk) (dir : Location) : List (String × Entry) :=
  (sortNames (d.namesAt dir)).filterMap fun name =>
    (d.get? (dir ++ [name])).map fun entry => (name, entry)

def checkLength (p : Path) : Task Error Unit :=
  if pathLimit ≤ p.text.utf8ByteSize then throw (.io p .nameTooLong) else pure ()

def copyEntry (source target : Path) : Task Error Unit := do
  makeParent target
  Task.mapError (Error.ofFault source) (Task.change (copyFile · source target))

mutual

/-- Copy the listed entries of a directory. The answer is the number of files copied. -/
def copyListed (skip : Option String) (levels : Nat) (dir : Location) (source target : Path) :
    List (String × Entry) → Task Error Nat
  | [] => pure 0
  | (name, entry) :: rest => do
    let old := source.child name
    let new := target.child name
    let here ←
      if entry = .directory then copyInto skip levels (dir ++ [name]) old new
      else if skip = some name then pure 0
      else do
        checkLength new
        copyEntry old new
        pure 1
    let there ← copyListed skip levels dir source target rest
    return here + there
termination_by entries => (levels, entries.length)

def copyInto (skip : Option String) (levels : Nat) (dir : Location) (source target : Path) :
    Task Error Nat := do
  -- read before the target is made, which may lie in the source
  let listed ← Task.look (snapshot · dir)
  checkLength target
  makeDirsAt target
  match levels with
  -- a path of so many names is too long
  | 0 => throw (.io target .nameTooLong)
  | levels + 1 => copyListed skip levels dir source target listed
termination_by (levels, 0)

end

/-- Copy all files below `source` to the same places below `target`, except those called
`skip`. The answer is the number of files copied. -/
def copyTree (source target : Path) (skip : Option String) : Task Error Nat := do
  let fail := Task.mapError fun reason => Error.io source (.walking source reason)
  let l ← fail (Task.ask (Disk.locate · false source))
  match ← Task.look (Disk.get? · l) with
  | some .directory => copyListed skip pathLimit l source target (← Task.look (snapshot · l))
  -- only the link that the copy starts from is followed as a directory
  | some (.link _) =>
    let l ← fail (Task.ask (Disk.locate · true source))
    if ← Task.look (isDirAt · l) then
      copyListed skip pathLimit l source target (← Task.look (snapshot · l))
    else return 0
  | _ => return 0

end Workbench.Disk
