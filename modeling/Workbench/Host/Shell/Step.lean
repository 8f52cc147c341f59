import Workbench.Host.Image
import Workbench.Host.Shell.Reader
import Workbench.Host.Shell.Utility
/-!
# Running shell scripts

A script runs step by step, so that it can be stopped at any step and goes on later. It pauses
where it sleeps. What is left to do is a list of frames.
-/
namespace Workbench.Shell

/-- What a subshell gives back when it ends. -/
structure Setting where
  name : String
  args : List String
  dir : Location
  vars : List (String × String)
  deriving Repr

/-- Something that a script has still to do. -/
inductive Frame where
  | run (p : Phrase) (w : Wiring)
  | ifTrue (p : Phrase) (w : Wiring)
  | ifFalse (p : Phrase) (w : Wiring)
  | negate
  | loopTest (untilTrue : Bool) (test body : Phrase) (w : Wiring)
  | loopAgain (untilTrue : Bool) (test body : Phrase) (w : Wiring)
  | each (name : String) (values : List String) (body : Phrase) (w : Wiring)
  | choose (yes no : Phrase) (w : Wiring)
  | feed (p : Phrase) (w : Wiring)
  | restoreInput (input : List UInt8)
  | leave (s : Setting)
  deriving Repr

/-- How a program ends: with a code, or by a signal. -/
inductive Ending where
  | exited (code : Nat)
  | killed
  deriving DecidableEq, Repr

/-- Why a script does not go on at once. -/
inductive Pause where
  | sleeping (thousandths : Nat)
  | ended (e : Ending)
  deriving DecidableEq, Repr

/-- A script at work. -/
structure Script where
  pid : Nat
  table : ProgramTable
  plainEcho : Bool
  here : Setting
  status : Nat := 0
  frames : List Frame := []
  input : List UInt8 := []
  buffers : List (List UInt8) := []
  /-- What was written and not yet read by others: whether it is an error, and the bytes. -/
  written : List (Bool × List UInt8) := []

namespace Script

def view (s : Script) (d : Disk) : Disk := { d with workDir := s.here.dir }

def value (s : Script) (name : String) : String :=
  match name with
  | "?" => Text.decimal s.status
  | "$" => Text.decimal s.pid
  | "#" => Text.decimal s.here.args.length
  | "0" => s.here.name
  | "@" | "*" => " ".intercalate s.here.args
  | _ =>
    match name.toNat? with
    | some (n + 1) => s.here.args[n]?.getD ""
    | _ =>
      if name = "PWD" then (Location.path s.here.dir).text
      else (s.here.vars.lookup name).getD ""

/-- The value of a variable, or what its reference says for when it has none. -/
def valueOr (s : Script) (reference : String) : String :=
  match Text.cutAt? [':', '-'] reference.toList with
  | some (name, other) =>
    let v := s.value (String.ofList name)
    if v = "" then String.ofList other else v
  | none => s.value reference

def setVar (s : Script) (name v : String) : Script :=
  let vars := (name, v) :: s.here.vars.filter (·.1 ≠ name)
  { s with here := { s.here with vars } }

def emit (s : Script) (d : Disk) (outlet : Outlet) (bytes : List UInt8) : Script × Disk :=
  if bytes = [] then (s, d)
  else match outlet with
    | .output => ({ s with written := s.written ++ [(false, bytes)] }, d)
    | .error => ({ s with written := s.written ++ [(true, bytes)] }, d)
    | .file l => (s, d.appendAt l bytes.toByteArray)
    | .buffer => ({ s with buffers := ((s.buffers.headD []) ++ bytes) :: s.buffers.drop 1 }, d)
    | .nowhere => (s, d)

def complaint (s : Script) (text : String) : List UInt8 :=
  (s.here.name ++ (if s.plainEcho then ": line 1: " else ": 1: ") ++ text ++ "\n").toUTF8.toList

/-- The fields of a word as far as they are known: finished ones, and the one at work. -/
structure Fields where
  finished : List String := []
  current : Option (List Char) := none

namespace Fields

def add (f : Fields) (cs : List Char) : Fields := { f with current := some (f.current.getD [] ++ cs) }

def close (f : Fields) : Fields :=
  match f.current with
  | some cs => ⟨f.finished ++ [String.ofList cs], none⟩
  | none => f

def addSplit (f : Fields) (cs : List Char) : Fields :=
  cs.foldl (fun f c => if c = ' ' || c = '\t' || c = '\n' then f.close else f.add [c]) f

/-- Add each of several values as a field; the first continues the field at work. -/
def addAll (f : Fields) : List String → Fields
  | [] => f
  | [v] => f.add v.toList
  | v :: rest => (f.add v.toList).close.addAll rest

def put (f : Fields) (quoted : Bool) (v : String) : Fields :=
  if quoted then f.add v.toList else f.addSplit v.toList

end Fields

/-- Frames from the next end of a subshell on, with the buffers that the others have left. -/
def unwind : List Frame → List (List UInt8) → List Frame × List (List UInt8)
  | [], buffers => ([], buffers)
  | .leave s :: rest, buffers => (.leave s :: rest, buffers)
  | .feed _ _ :: rest, buffers => unwind rest (buffers.drop 1)
  | _ :: rest, buffers => unwind rest buffers

def exit (s : Script) (code : Nat) : Script :=
  let (frames, buffers) := unwind s.frames s.buffers
  { s with status := code % 256, frames, buffers }

def rewire (old new : Wiring) : Frame → Frame
  | .run p w => .run p (if w = old then new else w)
  | .ifTrue p w => .ifTrue p (if w = old then new else w)
  | .ifFalse p w => .ifFalse p (if w = old then new else w)
  | .loopTest u t b w => .loopTest u t b (if w = old then new else w)
  | .loopAgain u t b w => .loopAgain u t b (if w = old then new else w)
  | .each n vs b w => .each n vs b (if w = old then new else w)
  | .choose y n w => .choose y n (if w = old then new else w)
  | .feed p w => .feed p (if w = old then new else w)
  | frame => frame

def apart (s : Script) (p : Phrase) (w : Wiring) : List Frame := [.run p w, .leave s.here]

/-- The time that a text for sleeping stands for, in thousandths of a second. -/
def duration (text : String) : Nat :=
  let whole := text.toList.takeWhile Char.isDigit
  let behind := match text.toList.drop whole.length with
    | '.' :: rest => (rest.takeWhile Char.isDigit).take 3
    | _ => []
  Text.numberOf 10 whole * 1000 +
    Text.numberOf 10 (behind ++ List.replicate (3 - behind.length) '0')

def sourceOf (s : Script) (d : Disk) (p : Path) : Except Fault (List Char) := do
  return (← (s.view d).readText p).toList

/-- The script with a phrase to be run as a shell of its own, by the words it is called by. -/
def enter (s : Script) (d : Disk) (image : Image) (w : Wiring) : Script × Disk :=
  let below := { s with frames := .leave s.here :: s.frames }
  let run (text : List Char) (name : String) (args : List String) : Script × Disk :=
    let s := { below with
      plainEcho := image.plainEcho, status := 0, here := { s.here with name, args } }
    match parse? text with
    | some p => ({ s with frames := .run p w :: s.frames }, d)
    | none =>
      ({ s with status := 2 }).emit d w.error
        (s.complaint (if s.plainEcho then "syntax error" else "Syntax error"))
  let shell := image.words.headD "sh"
  match image.words.drop 1 with
  | [] => ({ s with status := 0 }, d)
  | first :: args =>
    -- the script is a word of the command line, or else a file
    if first.toList.head? = some '-' && first.toList.contains 'c' then
      match args with
      | text :: args => run text.toList (args.headD shell) (args.drop 1)
      | [] => ({ s with status := 2 }, d)
    else match s.sourceOf d ⟨first⟩ with
      | .ok text => run text first args
      | .error f =>
        let text :=
          if image.plainEcho then shell ++ ": " ++ first ++ ": " ++ plainMessage f ++ "\n"
          else shell ++ ": 0: cannot open " ++ first ++ ": No such file\n"
        ({ s with status := if image.plainEcho then 127 else 2 }).emit d w.error text.toUTF8.toList

def changeDir (s : Script) (d : Disk) (w : Wiring) (args : List String) : Script × Disk :=
  let target := match args with
    | [] => s.value "HOME"
    | arg :: _ => arg
  match (s.view d).locate true ⟨target⟩ with
  | .ok l =>
    if d.isDirAt l then ({ s with status := 0, here := { s.here with dir := l } }, d)
    else ({ s with status := if s.plainEcho then 1 else 2 }).emit d w.error
      (s.complaint (if s.plainEcho then "cd: " ++ target ++ ": Not a directory"
        else "cd: can't cd to " ++ target))
  | .error f =>
    ({ s with status := if s.plainEcho then 1 else 2 }).emit d w.error
      (s.complaint (if s.plainEcho then "cd: " ++ target ++ ": " ++ plainMessage f
        else "cd: can't cd to " ++ target))

def readLine (s : Script) (names : List String) : Script :=
  let line := s.input.takeWhile (· ≠ 10)
  let complete := line.length < s.input.length
  let s := { s with input := s.input.drop (line.length + 1), status := if complete then 0 else 1 }
  let text := String.ofList (line.map fun b => Char.ofNat b.toNat)
  match names.filter fun n => n.toList.head? != some '-' with
  | [] => s
  | [name] => s.setVar name (Text.trim text)
  | name :: more =>
    let front := text.toList.takeWhile (· ≠ ' ')
    let s := s.setVar name (String.ofList front)
    s.setVar (more.headD "") (Text.trim (String.ofList (text.toList.drop front.length)))

/-- Whether a signal ends the script that sends it, by the arguments of the utility. -/
def killsItself (s : Script) (args : List String) : Bool :=
  args.getLast? = some (Text.decimal s.pid) &&
    !args.any fun a => ["-0", "-STOP", "-CONT", "-CHLD", "-WINCH"].contains a

def perform (s : Script) (d : Disk) (w : Wiring) (name : String) (args : List String) :
    Script × Disk × Option Pause :=
  let go (r : Script × Disk) : Script × Disk × Option Pause := (r.1, r.2, none)
  match name with
  | "exit" =>
    let code := match args with
      | a :: _ => (numberIn a.toList % 256).toNat
      | [] => s.status
    go (s.exit code, d)
  | "cd" => go (s.changeDir d w args)
  | "export" | "local" | "readonly" =>
    go (args.foldl (fun s a =>
      match Text.cutAt? ['='] a.toList with
      | some (name, v) => s.setVar (String.ofList name) (String.ofList v)
      | none => s) { s with status := 0 }, d)
  | "unset" =>
    let vars := s.here.vars.filter fun v => !args.contains v.1
    go ({ s with status := 0, here := { s.here with vars } }, d)
  | "shift" =>
    let n := match args with
      | a :: _ => Text.numberOf 10 a.toList
      | [] => 1
    go ({ s with status := 0, here := { s.here with args := s.here.args.drop n } }, d)
  | "read" => go (s.readLine args, d)
  | "sleep" => ({ s with status := 0 }, d, some (.sleeping ((args.map duration).foldl (· + ·) 0)))
  | "kill" =>
    if s.killsItself args then (s, d, some (.ended .killed)) else go ({ s with status := 0 }, d)
  | "eval" =>
    match parse? (" ".intercalate args).toList with
    | some p => go ({ s with status := 0, frames := .run p w :: s.frames }, d)
    | none => go ({ s with status := 2 }, d)
  | _ =>
    match utility? s.plainEcho name with
    | some run =>
      -- a utility works in the directory of the script and cannot leave it
      let r := run { name, args, disk := s.view d, input := s.input }
      let s := { s with status := r.status, input := r.input }
      let d := { r.disk with workDir := d.workDir }
      let (s, d) := s.emit d w.error r.error.toUTF8.toList
      go (s.emit d w.output r.output)
    | none =>
      match s.table.image (s.view d) (name :: args) with
      | .ok image => go (s.enter d image w)
      | .error .denied =>
        go (({ s with status := 126 }).emit d w.error (s.complaint (name ++ ": Permission denied")))
      | .error _ =>
        go (({ s with status := 127 }).emit d w.error
          (s.complaint (name ++ (if s.plainEcho then ": command not found" else ": not found"))))

mutual

def expand : (fuel : Nat) → Script → Disk → Fields → List Piece → Fields × Script × Disk
  | 0, s, d, f, _ => (f, s, d)
  | _ + 1, s, d, f, [] => (f, s, d)
  | fuel + 1, s, d, f, piece :: rest =>
    match piece with
    | .plain text _ => expand fuel s d (f.add text) rest
    | .variable name quoted =>
      let f := if name = "@" then
          (if quoted then f.addAll s.here.args else s.here.args.foldl (fun f v => (f.put false v).close) f)
        else f.put quoted (s.valueOr name)
      expand fuel s d f rest
    | .sum text quoted =>
      let n := (sum? s.value text).getD 0
      expand fuel s d (f.put quoted (Text.decimalInt n)) rest
    | .output text quoted =>
      let p := (parse? text).getD .nothing
      -- a command in a word runs as a shell of its own, and what it writes is kept
      let inner := { s with frames := [.run p { output := .buffer }], buffers := [[]] }
      let (inner, d) := runAll fuel inner d
      let bytes := Text.dropLastWhile (· = 10) (inner.buffers.headD [])
      let text := ((String.fromUTF8? bytes.toByteArray).getD "")
      let s := { s with status := inner.status, written := inner.written }
      expand fuel s d (f.put quoted text) rest

/-- The fields that words stand for. A tilde in front of a word is the home directory. -/
def expandAll : (fuel : Nat) → Script → Disk → List Word → List String × Script × Disk
  | 0, s, d, _ => ([], s, d)
  | _ + 1, s, d, [] => ([], s, d)
  | fuel + 1, s, d, w :: rest =>
    let w := match w with
      | [.plain ['~'] false] => [.variable "HOME" true]
      | .plain ['~'] false :: .plain ['/'] false :: more =>
        .variable "HOME" true :: .plain ['/'] false :: more
      | w => w
    let (f, s, d) := expand fuel s d {} w
    let (more, s, d) := expandAll fuel s d rest
    (f.close.finished ++ more, s, d)

/-- Connect streams as asked for. The answer is the new wiring, or nothing after a fault that was
reported. -/
def connect : (fuel : Nat) → Script → Disk → Wiring → List Redirection →
    Option Wiring × Script × Disk
  | 0, s, d, w, _ => (some w, s, d)
  | _ + 1, s, d, w, [] => (some w, s, d)
  | fuel + 1, s, d, w, r :: rest =>
    let (fields, s, d) := expandAll fuel s d [r.target]
    let target := fields.headD ""
    let wire (o : Outlet) : Wiring :=
      if r.stream = 2 then { w with error := o } else { w with output := o }
    let refuse (verb : String) (f : Fault) : Option Wiring × Script × Disk :=
      let text := if s.plainEcho then target ++ ": " ++ plainMessage f
        else "cannot " ++ verb ++ " " ++ target ++ ": " ++
          (if f = .missing then (if verb = "open" then "No such file" else "Directory nonexistent")
          else plainMessage f)
      let (s, d) := ({ s with status := if s.plainEcho then 1 else 2 }).emit d w.error (s.complaint text)
      (none, s, d)
    match r.direction with
    | .duplicate =>
      let o := match target with
        | "1" => w.output
        | "2" => w.error
        | _ => .nowhere
      connect fuel s d (wire o) rest
    | .read =>
      if target = "/dev/null" then connect fuel { s with input := [] } d w rest
      else match (s.view d).readBytes ⟨target⟩ with
        | .ok bytes => connect fuel { s with input := bytes.toList } d w rest
        | .error f => refuse "open" f
    | _ =>
      if target = "/dev/null" then connect fuel s d (wire .nowhere) rest
      else if target = "/dev/stdout" then connect fuel s d (wire .output) rest
      else if target = "/dev/stderr" then connect fuel s d (wire .error) rest
      else match (s.view d).openForWriting (r.direction = .write) ⟨target⟩ with
        | .ok (l, opened) =>
          connect fuel s { opened with workDir := d.workDir } (wire (.file l)) rest
        | .error f => refuse "create" f

def step : (fuel : Nat) → Script → Disk → Script × Disk × Option Pause
  | 0, s, d => (s, d, some (.sleeping 1))
  | fuel + 1, s, d =>
    let on (fs : List Frame) (rest : List Frame) : Script × Disk × Option Pause :=
      ({ s with frames := fs ++ rest }, d, none)
    match s.frames with
    | [] => (s, d, some (.ended (.exited s.status)))
    | .run p w :: rest =>
      match p with
      | .nothing => on [] rest
      | .sequence a b => on [.run a w, .run b w] rest
      | .both a b => on [.run a w, .ifTrue b w] rest
      | .either a b => on [.run a w, .ifFalse b w] rest
      | .negation a => on [.run a w, .negate] rest
      | .pipe a b =>
        ({ s with
          frames := s.apart a { w with output := .buffer } ++ .feed b w :: rest
          buffers := [] :: s.buffers }, d, none)
      | .branch test yes no => on [.run test w, .choose yes no w] rest
      | .loop untilTrue test body => on [.run test w, .loopTest untilTrue test body w] rest
      | .each name words body =>
        let (values, s, d) := expandAll fuel { s with frames := rest } d words
        ({ s with status := 0, frames := .each name values body w :: rest }, d, none)
      | .group separate body connections =>
        let input := s.input
        let (wiring, s, d) := connect fuel { s with frames := rest } d w connections
        match wiring with
        | none => (s, d, none)
        | some w =>
          let inner := if separate then s.apart body w else [.run body w]
          let restore := if connections.any (·.direction = .read) then [.restoreInput input] else []
          ({ s with frames := inner ++ restore ++ rest }, d, none)
      | .simple settings words connections =>
        let input := s.input
        let (fields, s, d) := expandAll fuel { s with frames := rest } d words
        let (wiring, s, d) := connect fuel s d w connections
        match wiring with
        | none => (s, d, none)
        | some wired =>
          let (values, s, d) := expandAll fuel s d (settings.map fun v => .plain [] true :: v.2)
          let s := (settings.zip values).foldl (fun s (v, value) => s.setVar v.1 value) s
          match fields with
          | [] => ({ s with status := 0 }, d, none)
          | name :: args =>
            let reads := connections.any (·.direction = .read)
            let s := if reads then { s with frames := .restoreInput input :: s.frames } else s
            if name = "exec" then
              match args with
              | [] =>
                ({ s with status := 0, frames := s.frames.map (rewire w wired) }, d, none)
              | name :: args =>
                let (frames, buffers) := unwind s.frames s.buffers
                ({ s with frames, buffers }).perform d wired name args
            else s.perform d wired name args
    | .ifTrue p w :: rest => if s.status = 0 then on [.run p w] rest else on [] rest
    | .ifFalse p w :: rest => if s.status = 0 then on [] rest else on [.run p w] rest
    | .negate :: rest =>
      ({ s with status := if s.status = 0 then 1 else 0, frames := rest }, d, none)
    | .loopTest untilTrue test body w :: rest =>
      if (s.status = 0) = !untilTrue then
        on [.run body w, .loopAgain untilTrue test body w] rest
      else ({ s with status := 0, frames := rest }, d, none)
    | .loopAgain untilTrue test body w :: rest =>
      on [.run test w, .loopTest untilTrue test body w] rest
    | .each name values body w :: rest =>
      match values with
      | [] => on [] rest
      | v :: values =>
        ({ s.setVar name v with frames := .run body w :: .each name values body w :: rest }, d, none)
    | .choose yes no w :: rest =>
      if s.status = 0 then on [.run yes w] rest
      else ({ s with status := 0, frames := .run no w :: rest }, d, none)
    | .feed p w :: rest =>
      ({ s with
        frames := s.apart p w ++ .restoreInput s.input :: rest
        input := s.buffers.headD [], buffers := s.buffers.drop 1 }, d, none)
    | .restoreInput input :: rest => ({ s with input, frames := rest }, d, none)
    | .leave here :: rest => ({ s with here, frames := rest }, d, none)

def runAll : (fuel : Nat) → Script → Disk → Script × Disk
  | 0, s, d => (s, d)
  | fuel + 1, s, d =>
    match step fuel s d with
    | (s, d, some (.ended _)) => (s, d)
    | (s, d, _) => runAll fuel s d

end

def sliceLimit : Nat := 100000

def runSlice : (steps : Nat) → Script → Disk → Script × Disk × Pause
  | 0, s, d => (s, d, .sleeping 1)
  | steps + 1, s, d =>
    match step sliceLimit s d with
    | (s, d, some pause) => (s, d, pause)
    | (s, d, none) => runSlice steps s d

end Script

end Workbench.Shell
