import Workbench.Disk.Basic
/-!
# Shell scripts

The commands of toolchains are mostly small shell scripts. A script is a phrase: simple commands
and what joins them.
-/
namespace Workbench.Shell

/-- What a word is made of. Values between quotation marks are not split. -/
inductive Piece where
  | plain (text : List Char) (quoted : Bool)
  | variable (name : String) (quoted : Bool)
  | sum (text : List Char) (quoted : Bool)
  | output (script : List Char) (quoted : Bool)
  deriving DecidableEq, Repr

abbrev Word := List Piece

/-- What a stream is connected to. -/
inductive Direction where
  | read
  | write
  | append
  | duplicate
  deriving DecidableEq, Repr

/-- The connection of one of the standard streams to a file, or to what another one is connected
to. -/
structure Redirection where
  stream : Nat
  direction : Direction
  target : Word
  deriving DecidableEq, Repr

/-- A piece of a script. -/
inductive Phrase where
  | nothing
  | simple (settings : List (String × Word)) (words : List Word) (connections : List Redirection)
  | sequence (first second : Phrase)
  | both (first second : Phrase)
  | either (first second : Phrase)
  | negation (p : Phrase)
  | pipe (first second : Phrase)
  | branch (test yes no : Phrase)
  | loop (untilTrue : Bool) (test body : Phrase)
  | each (name : String) (words : List Word) (body : Phrase)
  | group (apart : Bool) (body : Phrase) (connections : List Redirection)
  deriving Repr

/-- Where output goes: one of the two streams of the program, a file, a buffer that the script
reads itself, or nowhere. -/
inductive Outlet where
  | output
  | error
  | file (l : Location)
  | buffer
  | nowhere
  deriving DecidableEq, Repr

/-- The connections of the standard streams. -/
structure Wiring where
  output : Outlet := .output
  error : Outlet := .error
  deriving DecidableEq, Repr

end Workbench.Shell
