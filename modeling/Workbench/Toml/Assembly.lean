import Workbench.Toml.Basic
/-!
# Assembling tables

The lines of a document build up one table. A table that was only named on the way to another
one can still be opened by a header of its own, once; one that was made by a dotted key can not,
and no dotted key adds to a table that has a header.
-/
namespace Workbench.Toml

/-- How a table came about. -/
inductive Origin where
  /-- By its own header. -/
  | header
  /-- As a part of the key of another header. -/
  | implied
  /-- As a part of a dotted key in front of a value. -/
  | dotted
  deriving DecidableEq, Repr

/-- What stands in a table that is being built. -/
inductive Node where
  | leaf (v : Toml)
  | table (origin : Origin) (entries : List (String × Node))
  /-- Tables that share one key; the last one is open. -/
  | tables (items : List (List (String × Node)))

namespace Node

mutual

def value : Node → Toml
  | .leaf v => v
  | .table _ entries => .table (entryValues entries)
  | .tables items => .list (itemValues items)

def entryValues : List (String × Node) → List (String × Toml)
  | [] => []
  | (key, node) :: rest => (key, node.value) :: entryValues rest

def itemValues : List (List (String × Node)) → List Toml
  | [] => []
  | entries :: rest => .table (entryValues entries) :: itemValues rest

end

end Node

abbrev Entries := List (String × Node)

/-- Entries with a key put to a node: in its old place, or at the end. -/
def putEntry (key : String) (node : Node) : Entries → Entries
  | [] => [(key, node)]
  | (k, old) :: rest => if k = key then (k, node) :: rest else (k, old) :: putEntry key node rest

/-- Change the table that a path leads to from a table; what is missing on the way is made. -/
def alter (byDots : Bool) (change : Origin → Entries → Option Entries) :
    List String → Origin → Entries → Option Entries
  | [], origin, entries => change origin entries
  | key :: path, _, entries =>
    match entries.lookup key with
    | none =>
      let origin := if byDots then Origin.dotted else .implied
      (alter byDots change path origin []).map fun inner =>
        entries ++ [(key, .table origin inner)]
    -- a value is no table that could be added to
    | some (.leaf _) => none
    | some (.table origin inner) =>
      -- a table with a header is closed to dotted keys
      if byDots && origin = .header then none
      else (alter byDots change path origin inner).map fun inner =>
        putEntry key (.table origin inner) entries
    | some (.tables items) =>
      -- what is added goes to the table that was opened last
      match items.getLast? with
      | none => none
      | some inner => (alter byDots change path .header inner).map fun inner =>
        putEntry key (.tables (items.dropLast ++ [inner])) entries

/-- Add a value to a table. A dotted key reaches only tables made by dotted keys. -/
def addValue (viaDots : Bool) (key : String) (v : Toml) (origin : Origin) (entries : Entries) :
    Option Entries :=
  if decide (origin = .dotted) != viaDots then none
  -- no key is given twice
  else if (entries.lookup key).isSome then none
  else some (entries ++ [(key, .leaf v)])

def addAt (path : List String) (v : Toml) (origin : Origin) (entries : Entries) :
    Option Entries :=
  match path.getLast? with
  | none => none
  | some key => alter true (addValue (path.length != 1) key v) path.dropLast origin entries

def openTable (key : String) (_ : Origin) (entries : Entries) : Option Entries :=
  match entries.lookup key with
  | none => some (entries ++ [(key, .table .header [])])
  | some (.table .implied inner) => some (putEntry key (.table .header inner) entries)
  | _ => none

def openNext (key : String) (_ : Origin) (entries : Entries) : Option Entries :=
  match entries.lookup key with
  | none => some (entries ++ [(key, .tables [[]])])
  | some (.tables items) => some (putEntry key (.tables (items ++ [[]])) entries)
  | _ => none

def ofPairs? (pairs : List (List String × Toml)) : Option Toml :=
  (pairs.foldlM (fun entries (path, v) => addAt path v .header entries) []).map fun entries =>
    .table (Node.entryValues entries)

/-- A line of a document that is not empty. -/
inductive Statement where
  | header (path : List String)
  | next (path : List String)
  | entry (path : List String) (v : Toml)

/-- A document as far as it is read: its table, and the path of the table that is open. -/
structure Draft where
  entries : Entries := []
  current : List String := []

def Draft.add (d : Draft) : Statement → Option Draft
  | .header path => do
    let key ← path.getLast?
    return ⟨← alter false (openTable key) path.dropLast .header d.entries, path⟩
  | .next path => do
    let key ← path.getLast?
    return ⟨← alter false (openNext key) path.dropLast .header d.entries, path⟩
  | .entry path v => do
    return { d with entries := ← alter false (addAt path v) d.current .header d.entries }

def ofStatements? (statements : List Statement) : Option Toml :=
  (statements.foldlM Draft.add {}).map fun d => .table (Node.entryValues d.entries)

end Workbench.Toml
