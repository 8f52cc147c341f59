import Workbench.Text.Basic
/-!
# Paths

A path is a text whose names are separated by slashes. It is kept as it was written: repeated
slashes and single dots have no meaning but are not removed. Questions about a path are asked
of its components. A leading tilde, alone or before a slash, stands for the home directory.
-/
namespace Workbench

/-- A path as written. -/
structure Path where
  text : String
  deriving DecidableEq, Repr, Inhabited

namespace Path

/-- What a path starts from: the root, the working directory by name, or nothing. -/
inductive Anchor where
  | root
  | here
  | none
  deriving DecidableEq, Repr

/-- A meaningful part of a path. -/
inductive Component where
  | root
  | here
  | up
  | name (s : String)
  deriving DecidableEq, Repr

/-- A stretch between slashes that means nothing: empty or a single dot. -/
def isVoid (segment : List Char) : Bool := segment = [] || segment = ['.']

def segments (p : Path) : List (List Char) := Text.splitAt '/' p.text.toList

def isAbsolute (p : Path) : Bool := p.text.toList.head? == some '/'

def anchor (p : Path) : Anchor :=
  if p.isAbsolute then .root
  else if p.segments.head? = some ['.'] then .here
  else .none

def body (p : Path) : List (List Char) :=
  if p.anchor = .none then p.segments else p.segments.drop 1

def Anchor.components : Anchor → List Component
  | .root => [.root]
  | .here => [.here]
  | .none => []

/-- The component that a stretch stands for, if it means anything. -/
def Component.ofSegment? (segment : List Char) : Option Component :=
  if isVoid segment then none
  else if segment = ['.', '.'] then some .up
  else some (.name (String.ofList segment))

def components (p : Path) : List Component :=
  p.anchor.components ++ p.body.filterMap Component.ofSegment?

def ofBody (a : Anchor) (body : List (List Char)) : Path :=
  let tail := Text.joinWith ['/'] body
  match a with
  | .root => ⟨String.ofList ('/' :: tail)⟩
  -- the dot in front has a meaning only at the beginning and must not get lost
  | .here => if body = [] then ⟨"."⟩ else ⟨String.ofList ('.' :: '/' :: tail)⟩
  | .none => ⟨String.ofList tail⟩

def trimmedBody (p : Path) : List (List Char) := Text.dropLastWhile isVoid p.body

/-- The path without its last component; the root and the empty path have no parent. -/
def parent? (p : Path) : Option Path :=
  match p.trimmedBody with
  | [] => if p.anchor = .here then some ⟨""⟩ else none
  | body => some (ofBody p.anchor (Text.dropLastWhile isVoid body.dropLast))

def fileName? (p : Path) : Option String :=
  match p.trimmedBody.getLast? with
  | some segment => if segment = ['.', '.'] then none else some (String.ofList segment)
  | none => none

/-- The part of the file name after its last dot. A name whose only dot comes first has none. -/
def fileExtension? (p : Path) : Option String := do
  let name ← p.fileName?
  match (Text.splitAt '.' name.toList).reverse with
  | last :: earlier :: more =>
    -- the only dot stands in front, as in the name of a hidden file
    if earlier = [] && more = [] then none else some (String.ofList last)
  | _ => none

/-- A path seen from another. An absolute path is itself from anywhere. -/
def join (p q : Path) : Path :=
  if q.isAbsolute then q
  else if p.text = "" || p.text.toList.getLast? = some '/' then ⟨p.text ++ q.text⟩
  else ⟨p.text ++ "/" ++ q.text⟩

def child (p : Path) (name : String) : Path := p.join ⟨name⟩

/-- The path with its file name replaced, or with the name added if it has none. -/
def withFileName (p : Path) (name : String) : Path :=
  match p.fileName?, p.parent? with
  | some _, some parent => parent.child name
  | _, _ => p.child name

/-- Whether two paths have the same components, however they are written. -/
def isSameAs (p q : Path) : Bool := p.components == q.components

def startsWith (p base : Path) : Bool := base.components.isPrefixOf p.components

/-- The stretches that are left after a number of meaningful ones. -/
def dropNames : Nat → List (List Char) → List (List Char)
  | 0, body => body
  | _ + 1, [] => []
  | n + 1, segment :: rest =>
    if isVoid segment then dropNames (n + 1) rest else dropNames n rest

def relativeTo? (p base : Path) : Option Path :=
  if p.startsWith base then
    match base.components.length with
    | 0 => some (ofBody p.anchor p.trimmedBody)
    | n + 1 =>
      let body := if p.anchor = .none then dropNames (n + 1) p.body else dropNames n p.body
      some (ofBody .none (Text.dropLastWhile isVoid (body.dropWhile isVoid)))
  else none

/-- The path that a text with a leading tilde stands for. Without a home directory, and where
the tilde is part of a name, the text stays as it is. -/
def expandHome (home : Option String) (s : String) : Path :=
  match home, s.toList with
  | some dir, ['~'] => ⟨dir⟩
  | some dir, '~' :: '/' :: rest => ⟨dir ++ String.ofList ('/' :: rest)⟩
  | _, _ => ⟨s⟩

end Path

end Workbench
