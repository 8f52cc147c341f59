import Workbench.Disk.Change
import Workbench.Error
/-!
# Replacing a file in one go

The new content is written to a temporary file beside the old one, which then takes its name. A
reader sees the old content or the new, never a part. The task is a list of steps, so that
statements can speak about what is on the disk between two of them.
-/
namespace Workbench

/-- One step of writing a file. -/
inductive WriteStep where
  | makeDirs (p : Path)
  | openEmpty (p : Path)
  | append (p : Path) (bytes : ByteArray)
  /-- Wait until the content has reached the medium. -/
  | settle (p : Path)
  | rename (source target : Path)

namespace WriteStep

def subject : WriteStep → Path
  | .makeDirs p | .openEmpty p | .append p _ | .settle p => p
  | .rename _ target => target

def appendTo (p : Path) (bytes : ByteArray) (d : Disk) : Except Fault Disk := do
  let l ← d.locate true p
  return d.appendAt l bytes

def run : WriteStep → Task Fault Unit
  | .makeDirs p => Disk.makeDirs p
  | .openEmpty p => Task.change fun d => (d.openForWriting true p).map Prod.snd
  | .append p bytes => Task.change (appendTo p bytes)
  -- what was written is on the disk at once
  | .settle _ => pure ()
  | .rename source target => Task.change (Disk.rename · source target)

def runAll : List WriteStep → Task Error Unit
  | [] => pure ()
  | step :: rest => do
    Task.mapError (Error.ofFault step.subject) step.run
    runAll rest

end WriteStep

namespace Path

def temporary (p : Path) : Path := p.withFileName ("." ++ p.fileName?.getD "" ++ ".tmp")

end Path

namespace Disk

def replaceSteps (p : Path) (bytes : ByteArray) : List WriteStep :=
  (p.parent?.map WriteStep.makeDirs).toList ++
    [.openEmpty p.temporary, .append p.temporary bytes, .settle p.temporary,
      .rename p.temporary p]

/-- Replace the content of a file, or make it, with the directories on the way. -/
def replace (p : Path) (bytes : ByteArray) : Task Error Unit :=
  WriteStep.runAll (replaceSteps p bytes)

def replaceText (p : Path) (text : String) : Task Error Unit := replace p text.toUTF8

end Disk

end Workbench
