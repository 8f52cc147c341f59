import Workbench.Pattern.Search
/-!
# Rewriting

A rule replaces every stretch that its pattern fits. Stretches are taken from left to right, at
each place the preferred fit, and never overlap; what lies between them is kept.
-/
namespace Workbench

/-- A part of a replacement: fixed text or a remembered stretch. -/
inductive Piece where
  | text (s : String)
  | group (number : Nat)
  deriving Repr

def Fit.fill (fit : Fit) (pieces : List Piece) : List Char :=
  pieces.flatMap fun
    | .text s => s.toList
    | .group number => fit.group number

/-- What to look for and what to put in its place. -/
structure RewriteRule where
  pattern : Pattern
  replacement : List Piece
  deriving Repr

def Pattern.fitAt? (p : Pattern) (c : Cursor) : Option Fit :=
  p.first ⟨c, []⟩ some

namespace RewriteRule

/-- Rewrite what follows a place. A fit of no characters is passed over. -/
def applyFrom (rule : RewriteRule) (before : List Char) : List Char → List Char
  | [] => []
  | c :: rest =>
    match rule.pattern.fitAt? ⟨before, c :: rest⟩ with
    | some fit =>
      if fit.cursor.after.length ≤ rest.length then
        fit.fill rule.replacement ++ rule.applyFrom fit.cursor.before fit.cursor.after
      else c :: rule.applyFrom (c :: before) rest
    | none => c :: rule.applyFrom (c :: before) rest
termination_by after => after.length

def apply (rule : RewriteRule) (text : List Char) : List Char :=
  rule.applyFrom [] text

end RewriteRule

end Workbench
