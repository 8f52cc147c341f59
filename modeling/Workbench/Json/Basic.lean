/-!
# JSON values

A string may be written with one half of a surrogate pair alone. Such a string stands for no
text; it can be read, but not used. A number that is not a plain whole number is kept only as
that. Values are recognised as records, numbers and choices by their shapes.
-/
namespace Workbench

/-- A JSON value. -/
inductive Json where
  | null
  | bool (b : Bool)
  | whole (i : Int)
  | real
  | string (text : Option String)
  | array (items : List Json)
  | object (members : List (Option String × Json))

namespace Json

def text (s : String) : Json := .string (some s)

def record (members : List (String × Json)) : Json :=
  .object (members.map fun (name, value) => (some name, value))

/-- The members of a record in the order of their names. A record is written as an object, in
which further members do not matter but each name stands once, or as the list of its values. -/
def fields? (names : List String) : Json → Option (List Json)
  | .array items => if items.length = names.length then some items else none
  | .object members =>
    if members.any fun (name, _) => name.isNone then none
    else names.mapM fun name =>
      match members.filter fun (n, _) => n = some name with
      | [(_, v)] => some v
      | _ => none
  | _ => none

def text? : Json → Option String
  | .string s => s
  | _ => none

def int64? : Json → Option Int
  | .whole i => if Int64.minValue.toInt ≤ i ∧ i ≤ Int64.maxValue.toInt then some i else none
  | _ => none

/-- One of several names, as a string, or as the only member of an object, with nothing in
it. -/
def choice? : Json → Option String
  | .string s => s
  | .object [(name, .null)] => name
  | _ => none

def items? : Json → Option (List Json)
  | .array items => some items
  | _ => none

end Json

end Workbench
