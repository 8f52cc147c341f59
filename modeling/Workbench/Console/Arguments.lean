import Workbench.Config.Basic
import Workbench.Text.Basic
/-!
# The command line

Words on the command line name an action, give values to its fields, and set options. Options may
stand before or after the action; each level, the part before and the part after, is read and
checked on its own. The first fault that is met decides.
-/
namespace Workbench.Console

/-- Settings that hold for one run only. -/
structure Overrides where
  strategy : Option StrategyKind := none
  port : Option UInt16 := none
  deriving DecidableEq, Repr

/-- What the user asks for. -/
inductive Action where
  | create (name : String)
  | register (path : String)
  | list
  | tree (project : String)
  | print (project : String) (file : String)
  | save (project : String) (file : String)
  | build (project : String) (overrides : Overrides)
  | run (project : String) (overrides : Overrides)
  | preview (project : String) (overrides : Overrides)
  | status (project : String)
  | settings (save : Bool)
  deriving DecidableEq, Repr

/-- What a command line says. -/
structure Invocation where
  verbose : Bool
  quiet : Bool
  action : Action
  deriving DecidableEq, Repr

/-- Why a command line does not lead to an action. -/
inductive NoAction where
  | helpWanted
  | versionWanted
  | nothingWanted
  | noAction
  | unknownAction (word : String)
  | unknownArgument (word : String)
  | conflict
  | excessValue (option : String)
  | missingValue
  | badValue (text : String)
  | missingField
  deriving DecidableEq, Repr

/-- What values are given for. -/
inductive Field where
  | help | version | verbose | quiet | save | strategy | port
  | name | path | project | file
  deriving DecidableEq, Repr

namespace Field

def word? : Field → Option String
  | help => some "help"
  | version => some "version"
  | verbose => some "verbose"
  | quiet => some "quiet"
  | save => some "save"
  | strategy => some "strategy"
  | port => some "port"
  | _ => none

def letter? : Field → Option Char
  | help => some 'h'
  | version => some 'V'
  | verbose => some 'v'
  | quiet => some 'q'
  | _ => none

def hasValue : Field → Bool
  | strategy | port => true
  | _ => false

/-- The port that a text stands for: digits, with a sign in front if wanted. -/
def portOf? (text : String) : Option UInt16 :=
  let (negative, digits) := match text.toList with
    | '-' :: rest => (true, rest)
    | '+' :: rest => (false, rest)
    | digits => (false, digits)
  if digits ≠ [] ∧ digits.all (Text.isDigitOf 10) then
    let n := Text.numberOf 10 digits
    if n < 65536 ∧ (negative → n = 0) then some n.toUInt16 else none
  else none

def check (field : Field) (text : String) : Except NoAction Unit :=
  match field with
  | port => if (portOf? text).isSome then .ok () else .error (.badValue text)
  | strategy => if (StrategyKind.ofText text).isOk then .ok () else .error (.badValue text)
  | file => if text = "" then .error .missingValue else .ok ()
  | _ => .ok ()

end Field

/-- The fields of a part of the command line: its options, and the fields that plain words are
given to, in order. -/
structure Level where
  options : List Field
  places : List Field
  deriving DecidableEq, Repr

namespace Level

def ofWord? (l : Level) (word : String) : Option Field := l.options.find? (·.word? = some word)

def ofLetter? (l : Level) (letter : Char) : Option Field :=
  l.options.find? (·.letter? = some letter)

def outer : Level := ⟨[.verbose, .quiet, .help, .version], []⟩

def after (options places : List Field) : Level := ⟨options ++ [.verbose, .quiet, .help], places⟩

def actions : List (String × Level) :=
  [("new", after [] [.name]),
    ("import", after [] [.path]),
    ("list", after [] []),
    ("tree", after [] [.project]),
    ("open", after [] [.project, .file]),
    ("save", after [] [.project, .file]),
    ("build", after [.strategy, .port] [.project]),
    ("run", after [.strategy, .port] [.project]),
    ("preview", after [.strategy, .port] [.project]),
    ("status", after [] [.project]),
    ("config", after [.save] [])]

def helpWord : String := "help"

def isActionWord (word : String) : Bool := word == helpWord || (actions.lookup word).isSome

end Level

/-- What was read of a part of the command line. A field that has come up is settled only when
the next one comes up, with the text that was found for it by then. -/
structure Reading where
  given : List (Field × String) := []
  open? : Option (Field × Option String) := none
  placed : Nat := 0
  deriving DecidableEq, Repr

namespace Reading

def has (r : Reading) (field : Field) : Bool := r.given.any (·.1 = field)

def text? (r : Reading) (field : Field) : Option String := r.given.lookup field

/-- Give a text to a field. No field is given twice. -/
def give (r : Reading) (field : Field) (text : String) : Except NoAction Reading := do
  if r.has field then .error .conflict
  else
    field.check text
    .ok { r with given := r.given ++ [(field, text)] }

def settle (r : Reading) : Except NoAction Reading :=
  match r.open? with
  | none => .ok r
  | some (_, none) => .error .missingValue
  | some (field, some text) => { r with open? := none }.give field text

def flag (r : Reading) (field : Field) : Except NoAction Reading := do
  let r ← r.settle
  match field with
  | .help => .error .helpWanted
  | .version => .error .versionWanted
  | _ => r.give field ""

/-- Read an option that is written as a word, perhaps with a value after an equals sign. -/
def longOption (l : Level) (r : Reading) (text : List Char) : Except NoAction Reading :=
  let (word, value?) : List Char × Option (List Char) := match Text.cutAt? ['='] text with
    | some (word, value) => (word, some value)
    | none => (text, none)
  let word := String.ofList word
  match l.ofWord? word with
  | none => .error (.unknownArgument word)
  | some field =>
    match field.hasValue, value? with
    | true, some value => do (← r.settle).give field (String.ofList value)
    | true, none => do return { (← r.settle) with open? := some (field, none) }
    | false, some _ => .error (.excessValue word)
    | false, none => r.flag field

def letters (l : Level) (r : Reading) : List Char → Except NoAction Reading
  | [] => .ok r
  | c :: rest =>
    match l.ofLetter? c with
    | none => .error (.unknownArgument (String.singleton c))
    | some field => do letters l (← r.flag field) rest

def place (l : Level) (r : Reading) (word : String) : Except NoAction Reading :=
  match l.places[r.placed]? with
  | some field => do
    return { (← r.settle) with open? := some (field, some word), placed := r.placed + 1 }
  | none => .error (.unknownArgument word)

def word (l : Level) (r : Reading) (word : String) : Except NoAction Reading :=
  match word.toList with
  | '-' :: '-' :: text => r.longOption l text
  | '-' :: c :: rest => r.letters l (c :: rest)
  | _ =>
    match r.open? with
    | some (field, none) => .ok { r with open? := some (field, some word) }
    | _ => r.place l word

def checkConflict (r : Reading) : Except NoAction Unit :=
  if r.has .verbose && r.has .quiet then .error .conflict else .ok ()

/-- Read what follows an action. All words after a double dash are plain. -/
def inner (l : Level) (plain : Bool) (r : Reading) : List String → Except NoAction Reading
  | [] => do
    let r ← r.settle
    r.checkConflict
    if l.places.all r.has then .ok r else .error .missingField
  | w :: rest =>
    if plain then do inner l plain (← r.place l w) rest
    else if w = "--" then inner l true r rest
    else do inner l plain (← r.word l w) rest

/-- Read what stands before the action; the answer holds the action with the words after it. -/
def outer (plain : Bool) (r : Reading) :
    List String → Except NoAction (Reading × Option (String × List String))
  | [] => .ok (r, none)
  | w :: rest =>
    if plain then
      .error (if Level.isActionWord w then .unknownArgument w else .unknownAction w)
    else if Level.isActionWord w then .ok (r, some (w, rest))
    else if w = "--" then outer true r rest
    else
      match w.toList with
      | '-' :: '-' :: text => do outer plain (← r.longOption .outer text) rest
      | '-' :: c :: letters => do outer plain (← r.letters .outer (c :: letters)) rest
      | _ => .error (.unknownAction w)

def overrides (r : Reading) : Overrides where
  strategy := (r.text? .strategy).bind fun text => (StrategyKind.ofText text).toOption
  port := (r.text? .port).bind Field.portOf?

/-- The action that a word names, with the fields that were given. -/
def action (r : Reading) (word : String) : Action :=
  let text (field : Field) : String := (r.text? field).getD ""
  match word with
  | "new" => .create (text .name)
  | "import" => .register (text .path)
  | "list" => .list
  | "tree" => .tree (text .project)
  | "open" => .print (text .project) (text .file)
  | "save" => .save (text .project) (text .file)
  | "build" => .build (text .project) r.overrides
  | "run" => .run (text .project) r.overrides
  | "preview" => .preview (text .project) r.overrides
  | "status" => .status (text .project)
  | _ => .settings (r.has .save)

end Reading

/-- Why help about an action ends without one: help is there for one action. -/
def helpFor : List String → NoAction
  | [] => .helpWanted
  | [w] => if Level.isActionWord w then .helpWanted else .unknownAction w
  | w :: v :: _ => .unknownAction (if Level.isActionWord w then v else w)

namespace Invocation

def ofWords (words : List String) : Except NoAction Invocation := do
  match ← Reading.outer false {} words with
  | (r, none) => .error (if r.given = [] then .nothingWanted else .noAction)
  | (r, some (word, rest)) =>
    match Level.actions.lookup word with
    | none => .error (helpFor rest)
    | some level =>
      let inner ← Reading.inner level false {} rest
      r.checkConflict
      return {
        verbose := r.has .verbose || inner.has .verbose
        quiet := r.has .quiet || inner.has .quiet
        action := inner.action word }

end Invocation

end Workbench.Console
