import Workbench.Text.Basic
import Workbench.Text.Word
/-!
# Text patterns

A pattern describes stretches of a text. Where several stretches fit, the pattern itself ranks
them: a repetition prefers more or fewer characters, an optional part prefers to be there, and
an earlier choice weighs more than a later one. `Pattern.outcomes` lists every way to fit at a
place, best first.
-/
namespace Workbench

/-- A set of characters. -/
inductive CharClass where
  | word
  | blank
  | of (members : List Char)
  | except (members : List Char)
  deriving Repr

def CharClass.has : CharClass → Char → Bool
  | .word, c => Text.isWord c
  | .blank, c => Text.isBlank c
  | .of members, c => members.contains c
  | .except members, c => !members.contains c

/-- Whether a repetition tries the longer stretch first or the shorter. -/
inductive Preference where
  | more
  | fewer
  deriving Repr, DecidableEq

/-- A description of stretches of text. -/
inductive Pattern where
  /-- One character of a class. -/
  | one (kind : CharClass)
  /-- Nothing, at a place where a word begins or ends. -/
  | edge
  /-- One pattern and then another. -/
  | seq (first second : Pattern)
  /-- A part that may be absent; its presence is preferred. -/
  | maybe (part : Pattern)
  /-- Any number of characters of a class. -/
  | many (wish : Preference) (kind : CharClass)
  /-- A part whose stretch is remembered under a number. -/
  | capture (number : Nat) (part : Pattern)
  deriving Repr

/-- A place in a text: what stands before it, nearest character first, and what follows. -/
structure Cursor where
  before : List Char
  after : List Char
  deriving Repr, DecidableEq

def Cursor.start (text : List Char) : Cursor := ⟨[], text⟩

def Cursor.text (c : Cursor) : List Char := c.before.reverse ++ c.after

/-- Whether exactly one of the neighbouring characters belongs to a word. -/
def Cursor.atEdge (c : Cursor) : Bool :=
  c.before.head?.any Text.isWord != c.after.head?.any Text.isWord

/-- A partial fit: where it has come to, and the places between which each remembered stretch
lies, latest first. -/
structure Fit where
  cursor : Cursor
  captures : List (Nat × Cursor × Cursor)
  deriving Repr, DecidableEq

def Cursor.upTo (start stop : Cursor) : List Char :=
  start.after.take (start.after.length - stop.after.length)

/-- The stretch remembered under a number, empty if there is none. -/
def Fit.group (fit : Fit) (number : Nat) : List Char :=
  match fit.captures.lookup number with
  | some (start, stop) => start.upTo stop
  | none => []

namespace Pattern

/-- The places reached by taking characters of a class one by one, in the preferred order. -/
def runs (wish : Preference) (kind : CharClass) (before : List Char) : List Char → List Cursor
  | [] => [⟨before, []⟩]
  | c :: rest =>
    if kind.has c then
      match wish with
      | .more => runs wish kind (c :: before) rest ++ [⟨before, c :: rest⟩]
      | .fewer => ⟨before, c :: rest⟩ :: runs wish kind (c :: before) rest
    else [⟨before, c :: rest⟩]

/-- Every way to fit a pattern from a place on, the preferred ones first. -/
def outcomes : Pattern → Fit → List Fit
  | .one kind, fit =>
    match fit.cursor.after with
    | c :: rest =>
      if kind.has c then [{ fit with cursor := ⟨c :: fit.cursor.before, rest⟩ }] else []
    | [] => []
  | .edge, fit => if fit.cursor.atEdge then [fit] else []
  | .seq first second, fit => (first.outcomes fit).flatMap second.outcomes
  | .maybe part, fit => part.outcomes fit ++ [fit]
  | .many wish kind, fit =>
    (runs wish kind fit.cursor.before fit.cursor.after).map fun c => { fit with cursor := c }
  | .capture number part, fit =>
    (part.outcomes fit).map fun done =>
      { done with captures := (number, fit.cursor, done.cursor) :: done.captures }

def literal (s : String) : Pattern :=
  match s.toList.map fun c => Pattern.one (.of [c]) with
  | [] => .many .fewer (.of [])
  | first :: rest => rest.foldl .seq first

def oneOrMore (wish : Preference) (kind : CharClass) : Pattern :=
  .seq (.one kind) (.many wish kind)

def all (first : Pattern) (rest : List Pattern) : Pattern :=
  rest.foldl .seq first

end Pattern

end Workbench
