import Workbench.Text.Basic
import Workbench.Text.Numeral
/-!
# The filter of diagnostics

Which diagnostic messages are shown: a list of directives, each a target with a level. The most
special directive comes first: longer targets before shorter ones, targets of one length in
falling order, and no target last.
-/
namespace Workbench

/-- How much is shown. -/
inductive Verbosity where
  | off | error | warn | info | debug | trace
  deriving DecidableEq, Repr

namespace Verbosity

def name : Verbosity → String
  | .off => "off"
  | .error => "error"
  | .warn => "warn"
  | .info => "info"
  | .debug => "debug"
  | .trace => "trace"

def all : List Verbosity := [.off, .error, .warn, .info, .debug, .trace]

/-- The level that a text stands for: its name in either case, or its place in the list. -/
def ofText? (text : List Char) : Option Verbosity :=
  match all.find? fun v => v.name.toList = text.map Char.toLower with
  | some v => some v
  | none =>
    let digits := if text.head? = some '+' then text.drop 1 else text
    if digits ≠ [] ∧ digits.all (Text.isDigitOf 10) then all[Text.numberOf 10 digits]? else none

end Verbosity

/-- A target and the level that is shown for it. -/
structure Directive where
  target : Option String
  level : Verbosity
  deriving DecidableEq, Repr

namespace Directive

def text (d : Directive) : String :=
  match d.target with
  | some target => target ++ "=" ++ d.level.name
  | none => d.level.name

def isTargetChar (c : Char) : Bool := c.isAlphanum || c == '_' || c == ':' || c == '-'

/-- The directive that a text stands for. A target without a level shows everything. -/
def ofText? (text : List Char) : Option Directive :=
  match Text.cutAt? ['='] text with
  | some (target, level) =>
    if target = [] || !target.all isTargetChar then none
    else if level = [] then some ⟨some (String.ofList target), .trace⟩
    else (Verbosity.ofText? level).map fun v => ⟨some (String.ofList target), v⟩
  | none =>
    match Verbosity.ofText? text with
    | some v => some ⟨none, v⟩
    | none =>
      if text = [] || !text.all isTargetChar then none
      else some ⟨some (String.ofList text), .trace⟩

def outranks : Option String → Option String → Bool
  | some a, some b =>
    b.utf8ByteSize < a.utf8ByteSize || (a.utf8ByteSize = b.utf8ByteSize && b < a)
  | some _, none => true
  | none, _ => false

/-- Directives with one added at its place, where it replaces one with the same target. -/
def insert (d : Directive) : List Directive → List Directive
  | [] => [d]
  | e :: rest =>
    if e.target = d.target then d :: rest
    else if outranks d.target e.target then d :: e :: rest
    else e :: insert d rest

end Directive

/-- The directives in force. -/
structure Filter where
  directives : List Directive
  deriving DecidableEq, Repr

namespace Filter

/-- The filter that a text stands for. What cannot be understood does not count; where nothing
is left, errors are shown. -/
def ofText (text : String) : Filter :=
  let found := (Text.splitAt ',' text.toList).filterMap Directive.ofText?
  if found = [] then ⟨[⟨none, .error⟩]⟩
  else ⟨found.foldl (fun ds d => Directive.insert d ds) []⟩

def text (f : Filter) : String := ",".intercalate (f.directives.map Directive.text)

/-- The filter for the wishes of the user: to see more, to see less, or else the configured
level. -/
def choose (verbose quiet : Bool) (level : String) : Filter :=
  if verbose then ofText "bento=debug"
  else if quiet then ofText "bento=error"
  else ofText ("bento=" ++ level)

end Filter

end Workbench
