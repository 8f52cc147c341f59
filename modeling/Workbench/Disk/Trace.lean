import Workbench.Disk.Basic
/-!
# Tracing paths

A path is traced name by name from the root or the working directory. Links are followed, at
most forty of them, so that a circle of links ends in a fault. Two dots lead to the parent of
the directory reached so far. Names have a greatest length; that of a whole path is not limited
here, as memory and rights are not.
-/
namespace Workbench

/-- Where a path leads: to an entry, or to a name that is free in an existing directory. -/
inductive Spot where
  | taken (l : Location)
  | free (dir : Location) (name : String)
  deriving DecidableEq, Repr

namespace Path

def names (p : Path) : List String := (p.segments.filter (· ≠ [])).map String.ofList

def endsInSlash (p : Path) : Bool := p.text.toList.getLast? == some '/'

/-- The steps of a path, a final slash counting as a step to the same place. -/
def steps (p : Path) : List String := if p.endsInSlash then p.names ++ ["."] else p.names

/-- Whether the text of a path can be handed to the operating system. -/
def hasNul (p : Path) : Bool := p.text.toList.contains (Char.ofNat 0)

end Path

namespace Disk

def linkLimit : Nat := 40

def nameLimit : Nat := 255

/-- Follow steps from a location. A link in the last place is followed only if asked for; what
becomes of other links is left to `onLink`, with the steps that are left to go. -/
def traceWith (d : Disk) (follow : Bool) (onLink : Location → List String → Except Fault Spot)
    (here : Location) : List String → Except Fault Spot
  | [] => .ok (.taken here)
  | step :: rest =>
    match d.get? here with
    | none => .error .missing
    | some .directory =>
      if step = "." then d.traceWith follow onLink here rest
      else if step = ".." then d.traceWith follow onLink here.dropLast rest
      else if nameLimit < step.utf8ByteSize then .error .nameTooLong
      else match d.get? (here ++ [step]) with
        -- only the last name may be free
        | none => if rest = [] then .ok (.free here step) else .error .missing
        | some (.link target) =>
          if rest = [] && !follow then .ok (.taken (here ++ [step]))
          -- the target is seen from the directory of the link, not from the link
          else onLink (if target.isAbsolute then [] else here) (target.steps ++ rest)
        | some _ => d.traceWith follow onLink (here ++ [step]) rest
    | some _ => .error .notDirectory

/-- Follow steps from a location through at most a number of links. -/
def trace (d : Disk) (follow : Bool) : (links : Nat) → Location → List String → Except Fault Spot
  | 0 => d.traceWith follow fun _ _ => .error .tooManyLinks
  | links + 1 => d.traceWith follow (d.trace follow links)

def startOf (d : Disk) (p : Path) : Location := if p.isAbsolute then [] else d.workDir

def spot (d : Disk) (follow : Bool) (p : Path) : Except Fault Spot :=
  if p.hasNul then .error .nulInPath
  else if p.text = "" then .error .missing
  else d.trace follow linkLimit (d.startOf p) p.steps

def locate (d : Disk) (follow : Bool) (p : Path) : Except Fault Location := do
  match ← d.spot follow p with
  | .taken l => .ok l
  | .free _ _ => .error .missing

/-- The directory that a path names an entry of, and the name. A path that ends in dots or at
the root names no entry. -/
def parentSpot (d : Disk) (p : Path) : Except Fault (Location × Option String) := do
  if p.hasNul then .error .nulInPath
  else if p.text = "" then .error .missing
  else
    match ← d.trace true linkLimit (d.startOf p) p.names.dropLast with
    | .free _ _ => .error .missing
    | .taken dir =>
      match d.get? dir with
      | some .directory =>
        match p.names.getLast? with
        | none => .ok (dir, none)
        | some name =>
          -- dots are steps to a directory and name no entry of it
          if name = "." || name = ".." then .ok (dir, none)
          else if nameLimit < name.utf8ByteSize then .error .nameTooLong
          else .ok (dir, some name)
      | some _ => .error .notDirectory
      | none => .error .missing

/-- The absolute path without links or dots that leads where a path leads. -/
def canonical (d : Disk) (p : Path) : Except Fault Path := do
  return (← d.locate true p).path

def entryAt (d : Disk) (p : Path) : Except Fault Entry := do
  match d.get? (← d.locate true p) with
  | some e => .ok e
  | none => .error .missing

def isThere (d : Disk) (p : Path) : Bool := (d.entryAt p).isOk

def isDir (d : Disk) (p : Path) : Bool :=
  match d.entryAt p with
  | .ok .directory => true
  | _ => false

def isFile (d : Disk) (p : Path) : Bool :=
  match d.entryAt p with
  | .ok (.file _ _) => true
  | _ => false

def readBytes (d : Disk) (p : Path) : Except Fault ByteArray := do
  match ← d.entryAt p with
  | .file content _ => .ok content
  | _ => .error .isDirectory

def readText (d : Disk) (p : Path) : Except Fault String := do
  match String.fromUTF8? (← d.readBytes p) with
  | some text => .ok text
  | none => .error .notText

def readNames (d : Disk) (p : Path) : Except Fault (List String) := do
  let l ← d.locate true p
  match d.get? l with
  | some .directory => .ok (d.namesAt l)
  | some _ => .error .notDirectory
  | none => .error .missing

end Disk

end Workbench
