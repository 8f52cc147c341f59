import Workbench.Error
import Workbench.Text.Basic
import Workbench.Text.Lossy
/-!
# Programs

A command is a program with arguments and a directory to run in. Only programs on the list of
allowed ones are ever started.

A program writes to two streams, and what it writes arrives in pieces. Each stream is read line by
line: a line is handed on as soon as its end has arrived, and what is left when the stream ends is
a last line. Line ends, and carriage returns before them, are not part of a line. The lines of both
streams go into one queue, from which they are taken in order. The relay is finished when both
streams have ended and the queue is empty.
-/
namespace Workbench

/-- A program, its arguments, and the directory to run it in. -/
structure Command where
  program : String
  args : List String
  workDir : Option Path := none
  deriving DecidableEq, Repr

namespace Command

def ofWords : List String → Outcome Command
  | [] => .error (.refused .emptyCommand)
  | program :: args => .ok ⟨program, args, none⟩

def inDir (c : Command) (dir : Path) : Command := { c with workDir := some dir }

def line (c : Command) : String := " ".intercalate (c.program :: c.args)

def isAllowed (c : Command) : Bool := allowedPrograms.contains c.program

end Command

/-- The bytes of a line whose end has not arrived yet. -/
structure LineReader where
  pending : List UInt8 := []
  deriving DecidableEq, Repr

namespace LineReader

def lineEnd : UInt8 := 10

def lineText (bytes : List UInt8) : String :=
  String.ofList (Text.dropLastWhile (fun c => c == '\r' || c == '\n') (Text.decodeLossy bytes))

/-- The lines that end within some bytes, and the bytes after the last end. -/
def cut (pending : List UInt8) : List UInt8 → List String × List UInt8
  | [] => ([], pending)
  | b :: rest =>
    if b = lineEnd then
      let (lines, left) := cut [] rest
      (lineText pending :: lines, left)
    else cut (pending ++ [b]) rest

/-- Take in a piece of the stream. The answer is the lines that it completes. -/
def feed (r : LineReader) (piece : List UInt8) : List String × LineReader :=
  let (lines, left) := cut r.pending piece
  (lines, ⟨left⟩)

def finish (r : LineReader) : List String :=
  if r.pending = [] then [] else [lineText r.pending]

def readAll (r : LineReader) : List (List UInt8) → List String
  | [] => r.finish
  | piece :: rest =>
    let (lines, r) := r.feed piece
    lines ++ r.readAll rest

end LineReader

/-- One of the two streams of a program. -/
inductive Stream where
  | output
  | error
  deriving DecidableEq, Repr

/-- The readers of both streams, none where a stream has ended, and the lines not yet taken. -/
structure Relay where
  output : Option LineReader := some {}
  error : Option LineReader := some {}
  queue : List String := []
  deriving DecidableEq, Repr

namespace Relay

def reader (r : Relay) : Stream → Option LineReader
  | .output => r.output
  | .error => r.error

def setReader (r : Relay) (s : Stream) (reader : Option LineReader) : Relay :=
  match s with
  | .output => { r with output := reader }
  | .error => { r with error := reader }

def feed (r : Relay) (s : Stream) (piece : List UInt8) : Relay :=
  match r.reader s with
  | none => r
  | some reader =>
    let (lines, reader) := reader.feed piece
    { r.setReader s (some reader) with queue := r.queue ++ lines }

def close (r : Relay) (s : Stream) : Relay :=
  match r.reader s with
  | none => r
  | some reader => { r.setReader s none with queue := r.queue ++ reader.finish }

def take? (r : Relay) : Option (String × Relay) :=
  match r.queue with
  | [] => none
  | line :: rest => some (line, { r with queue := rest })

def isFinished (r : Relay) : Bool := r.output.isNone && r.error.isNone && r.queue = []

end Relay

end Workbench
