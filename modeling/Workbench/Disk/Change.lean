import Workbench.Disk.Trace
/-!
# Changing the disk

Single changes either succeed or leave the disk as it was, so each is a function to a new disk
or a fault. Tasks are sequences of changes; a fault ends a task and keeps what was done before.
-/
namespace Workbench

namespace Disk

def makeDir (d : Disk) (p : Path) : Except Fault Disk := do
  match ← d.parentSpot p with
  | (_, none) => .error .exists
  | (dir, some name) =>
    match d.get? (dir ++ [name]) with
    | some _ => .error .exists
    | none => .ok (d.put (dir ++ [name]) .directory)

/-- Open a file for writing: an empty file is made at a free name, and a file that is there is
emptied if `truncate` says so. The answer is the location of the file. -/
def openForWriting (d : Disk) (truncate : Bool) (p : Path) : Except Fault (Location × Disk) := do
  if p.endsInSlash then
    -- a final slash asks for a directory, but a fault on the way comes first
    let _ ← d.parentSpot p
    .error .isDirectory
  else
    match ← d.spot true p with
    | .free dir name => .ok (dir ++ [name], d.put (dir ++ [name]) (.file .empty false))
    | .taken l =>
      match d.get? l with
      | some (.file _ runnable) =>
        .ok (l, if truncate then d.put l (.file .empty runnable) else d)
      | _ => .error .isDirectory

def appendAt (d : Disk) (l : Location) (bytes : ByteArray) : Disk :=
  match d.get? l with
  | some (.file content runnable) => d.put l (.file (content ++ bytes) runnable)
  | _ => d

def writeBytes (d : Disk) (p : Path) (bytes : ByteArray) : Except Fault Disk := do
  let (l, d) ← d.openForWriting true p
  return d.appendAt l bytes

/-- Remove an entry other than a directory; a link itself, not what it leads to. -/
def removeFile (d : Disk) (p : Path) : Except Fault Disk := do
  match ← d.parentSpot p with
  | (_, none) => .error .isDirectory
  | (dir, some name) =>
    match d.get? (dir ++ [name]) with
    | none => .error .missing
    | some .directory => .error .isDirectory
    | some _ => if p.endsInSlash then .error .notDirectory else .ok (d.erase (dir ++ [name]))

def removeDir (d : Disk) (p : Path) : Except Fault Disk := do
  match ← d.parentSpot p with
  | (_, none) =>
    match p.names.getLast? with
    | none => .error .busy
    -- two dots lead to a directory that holds the one before them
    | some dots => if dots = ".." then .error .notEmpty else .error .invalid
  | (dir, some name) =>
    match d.get? (dir ++ [name]) with
    | none => .error .missing
    | some .directory =>
      if d.namesAt (dir ++ [name]) = [] then .ok (d.erase (dir ++ [name])) else .error .notEmpty
    | some _ => .error .notDirectory

def moveAt (d : Disk) (source target : Location) : Disk :=
  match d.get? source with
  | some .directory =>
    -- a directory takes all that is below it along
    let kept := d.entries.filter fun (k, _) => k ≠ target
    { d with entries := kept.map fun (k, e) =>
        if source.isWithin k then (target ++ k.drop source.length, e) else (k, e) }
  | some e => (d.erase source).put target e
  | none => d

/-- Rename an entry. A file replaces a file, and a directory an empty directory. -/
def rename (d : Disk) (source target : Path) : Except Fault Disk := do
  let (sourceDir, sourceName) ← d.parentSpot source
  let (targetDir, targetName) ← d.parentSpot target
  match sourceName, targetName with
  | some sourceName, some targetName =>
    let old := sourceDir ++ [sourceName]
    let new := targetDir ++ [targetName]
    match d.get? old with
    | none => .error .missing
    | some .directory =>
      if old = new then .ok d
      -- a directory cannot be put into itself
      else if old.isWithin new then .error .invalid
      else if new.isWithin old then .error .notEmpty
      else match d.get? new with
        | none => .ok (d.moveAt old new)
        | some .directory =>
          if d.namesAt new = [] then .ok (d.moveAt old new) else .error .notEmpty
        | some _ => .error .notDirectory
    | some _ =>
      if source.endsInSlash || target.endsInSlash then .error .notDirectory
      else if old = new then .ok d
      else if new.isWithin old then .error .notEmpty
      else match d.get? new with
        | some .directory => .error .isDirectory
        | _ => .ok (d.moveAt old new)
  | _, _ => .error .busy

/-- Make a copy of a regular file, with its leave to be run. The target is emptied before the
source is read, so a file copied onto itself is emptied. -/
def copyFile (d : Disk) (source target : Path) : Except Fault Disk := do
  let l ← d.locate true source
  match d.get? l with
  | some (.file _ runnable) =>
    let (t, d) ← d.openForWriting true target
    let content := match d.get? l with
      | some (.file content _) => content
      | _ => .empty
    return d.put t (.file content runnable)
  | _ => .error .irregularSource

end Disk

abbrev Task (ε α : Type) := ExceptT ε (StateM Disk) α

namespace Task

def change (f : Disk → Except ε Disk) : Task ε Unit := fun d =>
  match f d with
  | .ok d => (.ok (), d)
  | .error e => (.error e, d)

def ask (f : Disk → Except ε α) : Task ε α := fun d => (f d, d)

def look (f : Disk → α) : Task ε α := fun d => (.ok (f d), d)

def mapError (f : ε → δ) (task : Task ε α) : Task δ α := fun d =>
  match task d with
  | (.ok a, d) => (.ok a, d)
  | (.error e, d) => (.error (f e), d)

end Task

namespace Disk

/-- Make a directory and the missing ones on the way to it. The first argument bounds how many
components are looked at. -/
def makeDirsWithin : Nat → Path → Task Fault Unit
  | 0, _ => pure ()
  | n + 1, p => fun d =>
    match d.makeDir p with
    | .ok d => (.ok (), d)
    | .error .missing =>
      match p.parent? with
      | none => (.error .missing, d)
      | some parent =>
        match makeDirsWithin n parent d with
        | (.error e, d) => (.error e, d)
        | (.ok (), d) =>
          match d.makeDir p with
          | .ok d => (.ok (), d)
          -- the way to the parent may have been the way to the directory, by dots or a link
          | .error e => if d.isDir p then (.ok (), d) else (.error e, d)
    | .error e => if d.isDir p then (.ok (), d) else (.error e, d)

def makeDirs (p : Path) : Task Fault Unit := makeDirsWithin p.components.length p

/-- Remove a directory with all that is in it, or a link. Links inside are removed and not
followed. -/
def removeTree (p : Path) : Task Fault Unit := fun d =>
  match d.locate false p with
  | .error e => (.error e, d)
  | .ok l =>
    match d.get? l with
    | some .directory => Task.change (removeDir · p) (d.eraseBelow l)
    -- what the link leads to stays
    | some (.link _) => Task.change (removeFile · p) d
    | some (.file _ _) => (.error .notDirectory, d)
    | none => (.error .missing, d)

end Disk

end Workbench
