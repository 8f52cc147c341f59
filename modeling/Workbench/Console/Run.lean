import Workbench.Calendar
import Workbench.Config.Store
import Workbench.Console.Arguments
import Workbench.Console.Screen
import Workbench.Editor.Operation
import Workbench.Project.Registry
import Workbench.Supervisor.Live
/-!
# A run of the program

A run reads the command line, loads the settings, and carries out one action. Most actions end by
themselves; a project that is served goes on being served until the user interrupts.
-/
namespace Workbench.Console

/-- The machine and what it shows. -/
structure Station where
  host : Host
  screen : Screen := {}

abbrev Doing (α : Type) := ExceptT Failure (StateM Station) α

namespace Doing

def fail (why : Failure) : Doing α := fun s => (.error why, s)

def onScreen (f : Screen → Screen) : Doing Unit := fun s =>
  (.ok (), { s with screen := f s.screen })

def printLine (line : String) : Doing Unit := onScreen (·.printLine line)

def printLines (lines : List String) : Doing Unit :=
  onScreen fun screen => lines.foldl Screen.printLine screen

def look (f : Host → α) : Doing α := fun s => (.ok (f s.host), s)

def ask (f : Host → Outcome α) : Doing α := fun s => ((f s.host).mapError .error, s)

/-- Carry out a task on the disk, with its errors put in other words. -/
def onDiskAs (wording : Error → Failure) (task : Task Error α) : Doing α := fun s =>
  let (result, disk) := task s.host.disk
  (result.mapError wording, { s with host := { s.host with disk } })

def onDisk (task : Task Error α) : Doing α := onDiskAs .error task

def edit (work : Editing α) : Doing α := onDisk fun disk =>
  let (result, desk) := work { disk }
  (result, desk.disk)

end Doing

def Overrides.apply (o : Overrides) (c : Config) : Config :=
  { c with
    build := { c.build with strategy := o.strategy.getD c.build.strategy }
    server := { c.server with port := o.port.getD c.server.port } }

def openLogFile (file : Path) : Task Error Unit := do
  if let some dir := file.parent? then Disk.makeDirsAt dir
  Task.mapError (Error.ofFault file)
    (Task.change fun d => (d.openForWriting false file).map Prod.snd)

/-- The project that a user means: one known by this name, or else a directory. -/
def findProject (r : Registry) (h : Host) (reference : String) : Except Failure Project :=
  match r.find? h.disk reference with
  | some p => .ok p
  | none =>
    match UserPath.ofInput h.disk h.home reference with
    | .error e => .error (.error e)
    | .ok user =>
      if h.disk.isDir user.expanded then .ok (.ofDir user.path h.clock)
      else .error (.unknownProject reference)

namespace Doing

def project (r : Registry) (reference : String) : Doing Project := fun s =>
  (findProject r s.host reference, s)

end Doing

/-- A supervisor that the user reads the log of. -/
structure Attended where
  live : Live
  echo : Echo

namespace Attended

def sent (a : Attended) : Broadcast := a.live.supervisor.log.live

def catchUp (a : Attended) : Attended := { a with echo := a.echo.catchUp a.sent }

def finish (id : Nat) : (fuel : Nat) → Attended → Attended
  | 0, a => a
  | fuel + 1, a =>
    if (a.live.answer? id).isSome then a
    else match a.live.turn id with
      | (true, live) => finish id fuel { a with live }.catchUp
      | (false, live) => { a with live }

end Attended

def call (live : Live) (r : Request) : Doing (Bool × Live) := fun s =>
  let (id, live) := live.begin r
  let a := Attended.finish id Live.patience ⟨live, .ofNow live.supervisor.log.live⟩
  let told := (a.echo.drain a.sent).told
  ((.ok ((a.live.answer? id).getD false, a.live.forget id) : Except Failure (Bool × Live)),
    { s with host := a.live.host, screen := told.foldl Screen.notice s.screen })

def supervise (c : Config) : Doing Live := do
  let strategy ← Doing.ask fun _ => Strategy.ofConfig c
  Doing.look fun host => { host, strategy }

def serve (live : Live) (p : Project) : Doing Attended := do
  let (running, live) ← call live (.run p)
  if !running then Doing.fail (.notRunning p.name)
  Doing.printLine "Press Ctrl-C to stop"
  return ⟨live, .ofNow live.supervisor.log.live⟩

def listLine (d : Disk) (p : Project) : String :=
  "  " ++ (if p.isThere d then "•" else "✗") ++ " " ++ p.name ++ " at " ++ p.path.text

def listLines (d : Disk) (projects : List Project) : List String :=
  if projects = [] then
    ["No projects registered.", "",
      "Create one with " ++ quoted "bento new <name>" ++ " or " ++ quoted "bento import <path>" ++ "."]
  else
    let many := if projects.length = 1 then "" else "s"
    (Text.decimal projects.length ++ " project" ++ many ++ ":") :: "" :: projects.map (listLine d)
where
  quoted (text : String) : String := "`" ++ text ++ "`"

def statusLines (name : String) : Option BuildRecord → List String
  | none => [name ++ ": never built"]
  | some r =>
    let outcome := match r.outcome with
      | .success => "✓ success"
      | .failed => "✗ failed"
    (name ++ ": " ++ outcome ++ " (" ++ r.strategy.name ++ " strategy) at " ++
      momentText r.timestamp) :: (if r.message = "" then [] else ["  " ++ r.message])

/-- Carry out an action. The answer is a project that goes on being served, if there is one. -/
def perform (c : Config) (input : ByteArray) (action : Action) : Doing (Option Attended) := do
  let home ← Doing.look Host.home
  let registry : Registry := ⟨c.registryFile home⟩
  match action with
  | .create name =>
    let now ← Doing.look Host.clock
    let p ← Doing.onDiskAs (.notCreated name) (registry.create (c.workspaceDir home) name now)
    Doing.printLines ["✓ Project created at: " ++ p.path.text, "", "Next steps:",
      "  bento build \"" ++ p.name ++ "\"", "  bento run \"" ++ p.name ++ "\""]
    return none
  | .register path =>
    let now ← Doing.look Host.clock
    let p ← Doing.onDiskAs (.notRegistered path) (registry.register home path now)
    Doing.printLine ("✓ Imported '" ++ p.name ++ "' from " ++ p.path.text)
    return none
  | .list =>
    Doing.printLines (← Doing.look fun h => listLines h.disk (registry.list h.disk))
    return none
  | .tree reference =>
    let p ← Doing.project registry reference
    let tree ← Doing.ask fun h => h.disk.outline p.path
    Doing.printLines (p.name :: outlineListLines 1 tree)
    return none
  | .print reference file =>
    let p ← Doing.project registry reference
    let text ← Doing.edit do
      Editor.openProject p
      Editor.openFile ⟨file⟩
    Doing.onScreen (·.print text)
    return none
  | .save reference file =>
    match String.fromUTF8? input with
    | none => Doing.fail .unreadableInput
    | some text =>
      let p ← Doing.project registry reference
      Doing.edit do
        Editor.openProject p
        let _ ← Editor.openFile ⟨file⟩
        Editor.saveFile text
      Doing.printLine ("✓ Saved " ++ file)
      return none
  | .build reference overrides =>
    let p ← Doing.project registry reference
    let (success, _) ← call (← supervise (overrides.apply c)) (.build p)
    if success then return none else Doing.fail (.notBuilt p.name)
  | .run reference overrides =>
    let p ← Doing.project registry reference
    return some (← serve (← supervise (overrides.apply c)) p)
  | .preview reference overrides =>
    let p ← Doing.project registry reference
    let (success, live) ← call (← supervise (overrides.apply c)) (.build p)
    if success then return some (← serve live p) else Doing.fail (.notBuiltForServer p.name)
  | .status reference =>
    let p ← Doing.project registry reference
    Doing.printLines (statusLines p.name (← Doing.look fun h => BuildRecord.load? h.disk p.path))
    return none
  | .settings save =>
    Doing.onScreen (·.print c.render)
    if save then
      Doing.onDisk (c.save home)
      Doing.onScreen (·.remark "✓ Configuration saved")
    return none

def obey (invocation : Invocation) (input : ByteArray) : Doing (Option Attended) := do
  let home ← Doing.look Host.home
  let c ← Doing.ask fun h => Config.load h.disk h.home
  if let some file := c.logFile? home then Doing.onDisk (openLogFile file)
  perform c input invocation.action

/-- How a run goes on: it has ended with a code, or it serves a project. -/
inductive Progress where
  | ended (code : UInt32)
  | serving (a : Attended)

def versionText : String := "bento 0.1.0"

def helpText : List String :=
  ["Bundle a small web-app source tree and preview it on a local static server", "",
    "Usage: bento [OPTIONS] <COMMAND>", "", "Commands:",
    "  new      Create a React + TypeScript project in the workspace",
    "  import   Register an existing project directory",
    "  list     List registered projects",
    "  tree     Print a project's file tree",
    "  open     Print a project file",
    "  save     Replace a project file with stdin",
    "  build    Build a project",
    "  run      Serve the last build until Ctrl-C",
    "  preview  Build, then serve if the build succeeded",
    "  status   Show the last recorded build",
    "  config   Print the effective configuration",
    "  help     Print this message or the help of the given subcommand(s)", "",
    "Options:",
    "  -v, --verbose  Debug-level diagnostics",
    "  -q, --quiet    Errors only",
    "  -h, --help     Print help",
    "  -V, --version  Print version"]

/-- What is remarked when a command line does not lead to an action. -/
def NoAction.message : NoAction → String
  | .helpWanted | .versionWanted | .nothingWanted => "no command was given"
  | .noAction => "a command is required"
  | .unknownAction word => "unrecognized command '" ++ word ++ "'"
  | .unknownArgument word => "unexpected argument '" ++ word ++ "'"
  | .conflict => "an option is given twice or excludes another one"
  | .excessValue option => "no value is expected for '--" ++ option ++ "'"
  | .missingValue => "a value is required"
  | .badValue text => "invalid value '" ++ text ++ "'"
  | .missingField => "a required argument is missing"

/-- End a run that did not lead to an action. Wishes for help or for the version are granted. -/
def withoutAction (why : NoAction) (screen : Screen) : UInt32 × Screen :=
  match why with
  | .helpWanted => (0, helpText.foldl Screen.printLine screen)
  | .versionWanted => (0, screen.printLine versionText)
  | .nothingWanted => (2, helpText.foldl Screen.remark screen)
  | why => (2, screen.remark ("error: " ++ why.message))

/-- Run the program with the words of a command line and an input, until it ends or serves. -/
def start (words : List String) (input : ByteArray) (host : Host) : Progress × Station :=
  match Invocation.ofWords words with
  | .error why =>
    let (code, screen) := withoutAction why {}
    (.ended code, { host, screen })
  | .ok invocation =>
    match obey invocation input { host } with
    | (.ok none, s) => (.ended 0, s)
    | (.ok (some a), s) => (.serving a, s)
    | (.error why, s) =>
      (.ended 1, { s with screen := s.screen.remark ("✗ Error: " ++ why.message) })

/-- Interrupt a run that serves a project: what was logged by now is shown, and the project is
served no more. -/
def interrupt (a : Attended) (s : Station) : Station :=
  let echo := a.echo.catchUpQuietly a.sent
  let s := { s with screen := echo.told.foldl Screen.notice s.screen }
  (call a.live .stop s).2

end Workbench.Console
