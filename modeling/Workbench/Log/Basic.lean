import Workbench.Text.Numeral
/-!
# The log

A broadcast hands every line to all subscribers that were there when it was sent. Only the last
lines are kept: a subscriber that has fallen behind is told once how many lines it lost, and goes
on with the oldest line that is kept.

The log of builds and servers is a text to which lines are added, and a broadcast of these lines.
Clearing the text leaves the subscribers alone. A line is first added to the text and then, as a
step of its own, sent.
-/
namespace Workbench

/-- What a subscriber gets when it asks for the next line. -/
inductive Reception where
  | line (text : String)
  | lagged (lost : Nat)
  | empty
  deriving DecidableEq, Repr

/-- The last lines that were sent, oldest first, how many were sent in all, and for each
subscriber the number of the line that it gets next. -/
structure Broadcast where
  kept : List String := []
  sent : Nat := 0
  next : List Nat := []
  deriving DecidableEq, Repr

namespace Broadcast

def capacity : Nat := 1024

def oldest (b : Broadcast) : Nat := b.sent - b.kept.length

def send (b : Broadcast) (line : String) : Broadcast :=
  let kept := b.kept ++ [line]
  { b with kept := kept.drop (kept.length - capacity), sent := b.sent + 1 }

/-- Add a subscriber, which gets the lines sent from now on. The answer is its number. -/
def subscribe (b : Broadcast) : Nat × Broadcast :=
  (b.next.length, { b with next := b.next ++ [b.sent] })

/-- What a subscriber who waits for line `next` gets, and the line it waits for then. -/
def receiveAt (b : Broadcast) (next : Nat) : Reception × Nat :=
  if next < b.oldest then (.lagged (b.oldest - next), b.oldest)
  else match b.kept[next - b.oldest]? with
    | some text => (.line text, next + 1)
    | none => (.empty, next)

def receive (b : Broadcast) (subscriber : Nat) : Reception × Broadcast :=
  match b.next[subscriber]? with
  | none => (.empty, b)
  | some next =>
    let (reception, next) := b.receiveAt next
    (reception, { b with next := b.next.set subscriber next })

/-- The lines that a subscriber who waits for line `next` has still to get. -/
def pending (b : Broadcast) (next : Nat) : List String := b.kept.drop (next - b.oldest)

end Broadcast

/-- A text of lines and their broadcast. -/
structure Log where
  text : String := ""
  live : Broadcast := {}
  deriving DecidableEq, Repr

namespace Log

def append (log : Log) (line : String) : Log := { log with text := log.text ++ line ++ "\n" }

def send (log : Log) (line : String) : Log := { log with live := log.live.send line }

def line (log : Log) (line : String) : Log := (log.append line).send line

def lines (log : Log) (lines : List String) : Log := lines.foldl Log.line log

theorem lines_append (log : Log) (front back : List String) :
    log.lines (front ++ back) = (log.lines front).lines back := List.foldl_append

def clear (log : Log) : Log := { log with text := "" }

/-- Add a subscriber. The answer is its number. -/
def subscribe (log : Log) : Nat × Log :=
  let (subscriber, live) := log.live.subscribe
  (subscriber, { log with live })

def receive (log : Log) (subscriber : Nat) : Reception × Log :=
  let (reception, live) := log.live.receive subscriber
  (reception, { log with live })

def summary (log : Log) : String :=
  "LogSink \x7b len: " ++ Text.decimal log.text.utf8ByteSize ++ " \x7d"

end Log

end Workbench
