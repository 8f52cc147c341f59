import Workbench.Disk.Trace
import Workbench.Text.Basic
/-!
# Finding programs

A program is looked for by its name in the directories of the search path. A file that starts
with a line naming an interpreter is run by that, and all ends in a shell.
-/
namespace Workbench

/-- Where programs are looked for, and the programs that this machine knows how to run. -/
structure ProgramTable where
  searchPath : List Path
  /-- The files of the shells, and whether each is of the kind that writes escapes as they are. -/
  shells : List (Location × Bool)
  /-- The files of programs that run another program by its name. -/
  launchers : List Location

/-- A shell and the arguments it is run with, the name it was called by first. -/
structure Image where
  plainEcho : Bool
  words : List String
  deriving DecidableEq, Repr

namespace ProgramTable

/-- The interpreter that the first line of a script names, and its argument. -/
def interpreter? (content : ByteArray) : Option (List String) :=
  match content.toList with
  | 35 :: 33 :: rest =>
    let line := String.ofList ((rest.takeWhile (· ≠ 10)).map fun b => Char.ofNat b.toNat)
    let line := (Text.trim line).toList
    let program := line.takeWhile fun c => !(c == ' ' || c == '\t')
    let argument := Text.trim (String.ofList (line.drop program.length))
    some (String.ofList program :: (if argument = "" then [] else [argument]))
  | _ => none

/-- The first of some paths that leads to a program that can be run, if `run` says so. A path
where nothing is, is passed over; one that may not be run is remembered. -/
def firstRunnable (run : Path → Except Fault α) (worst : Fault) : List Path → Except Fault α
  | [] => .error worst
  | p :: rest =>
    match run p with
    | .ok a => .ok a
    | .error .missing | .error .notDirectory => firstRunnable run worst rest
    | .error .denied => firstRunnable run .denied rest
    | .error fault => .error fault

mutual

/-- The shell that runs the program at a path, with the words it is called by. -/
def imageAt (t : ProgramTable) (d : Disk) :
    (fuel : Nat) → Path → List String → Except Fault Image
  | 0, _, _ => .error .tooManyLinks
  | fuel + 1, p, words => do
    let l ← d.locate true p
    match d.get? l with
    | some (.file content true) =>
      match t.shells.lookup l with
      | some plainEcho => .ok ⟨plainEcho, words⟩
      | none =>
        if t.launchers.contains l then t.imageOf d fuel (words.drop 1)
        else match interpreter? content with
          | some (program :: arguments) =>
            t.imageAt d fuel ⟨program⟩ (program :: arguments ++ p.text :: words.drop 1)
          | _ => .error .notRunnable
    | _ => .error .denied

def imageOf (t : ProgramTable) (d : Disk) : (fuel : Nat) → List String → Except Fault Image
  | 0, _ => .error .tooManyLinks
  | _, [] => .error .missing
  | fuel + 1, name :: args =>
    if name = "" then .error .missing
    else if name.toList.contains '/' then t.imageAt d fuel ⟨name⟩ (name :: args)
    else firstRunnable (fun dir => t.imageAt d fuel (dir.child name) (name :: args)) .missing
      t.searchPath

end

def interpreterLimit : Nat := 12

def image (t : ProgramTable) (d : Disk) (words : List String) : Except Fault Image :=
  t.imageOf d interpreterLimit words

end ProgramTable

end Workbench
