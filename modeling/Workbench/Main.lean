import Workbench.Console.Run
/-!
# The program

The program works on a picture of the files that a command may touch, and writes back what has
changed in it. It has no socket: while a project is served, each line of the input is a request,
and its answer is printed; the end of the input interrupts.
-/
namespace Workbench.Main

/-- The time in thousandths of a second since 1970, read off a file that is made for it. -/
def clock : IO Nat := do
  let (_, file) ← IO.FS.createTempFile
  let time := (← file.metadata).modified
  IO.FS.removeFile file
  return time.sec.toNat * 1000 + time.nsec.toNat / 1000000

def locationOf (text : String) : Location := (Path.mk text).names

def note (disk : Disk) (l : Location) (e : Entry) : Disk :=
  let parents := (List.range l.length).map l.take
  (parents.filter (· ≠ [])).foldl (fun d l => d.put l .directory) disk |>.put l e

/-- Add what is at a place to the picture, down to a number of levels. Installed packages are not
looked into. -/
def add (disk : Disk) : (levels : Nat) → IO.FS.DirEntry → IO Disk
  | 0, _ => return disk
  | levels + 1, entry => do
    let here := entry.path
    if !(← here.pathExists) then return disk
    let l := locationOf (← IO.FS.realPath here).toString
    if ← here.isDir then
      let disk := note disk l .directory
      if entry.fileName = "node_modules" || entry.fileName = ".git" then return disk
      let mut disk := disk
      for inner in ← here.readDir do
        disk ← add disk levels inner
      return disk
    else return note disk l (.file (← IO.FS.readBinFile here) false)

def addAt (disk : Disk) (p : Path) : IO Disk := do
  let here ← IO.currentDir
  let target := (Path.mk here.toString).join p
  add disk 64 { root := (target.parent?.getD target).text, fileName := target.fileName?.getD "" }

def subject? : Console.Action → Option String
  | .register path => some path
  | .tree p | .print p _ | .save p _ | .build p _ | .run p _ | .preview p _ | .status p => some p
  | _ => none

def picture (home : Option String) (words : List String) : IO Disk := do
  let here := (← IO.currentDir).toString
  let empty : Disk := { entries := [], workDir := locationOf here }
  let mut disk ← addAt (note empty empty.workDir .directory) Config.localFile
  if let some file := Config.userFile? home then disk ← addAt disk file
  let c := (Config.load disk home).toOption.getD {}
  disk ← addAt disk (c.registryFile home)
  disk ← addAt disk (c.workspaceDir home)
  if let some file := c.logFile? home then disk ← addAt disk file
  let .ok invocation := Console.Invocation.ofWords words | return disk
  if let some text := subject? invocation.action then
    disk ← addAt disk (Path.expandHome home (Text.trim text))
  for p in Registry.list ⟨c.registryFile home⟩ disk do
    disk ← addAt disk p.path
  return disk

def writeBack (old new : Disk) : IO Unit := do
  let deepFirst := old.entries.mergeSort fun a b => b.1.length ≤ a.1.length
  for (l, e) in deepFirst do
    if new.get? l = none then
      if e = .directory then IO.FS.removeDir l.path.text else IO.FS.removeFile l.path.text
  let shallowFirst := new.entries.mergeSort fun a b => a.1.length ≤ b.1.length
  for (l, e) in shallowFirst do
    if old.get? l ≠ some e then
      match e with
      | .directory => IO.FS.createDirAll l.path.text
      | .file content _ => IO.FS.writeBinFile l.path.text content
      | .link _ => pure ()

partial def inputBytes (read : ByteArray) : IO ByteArray := do
  let more ← (← IO.getStdin).read 65536
  if more.isEmpty then return read else inputBytes (read ++ more)

def inputFor (words : List String) : IO ByteArray :=
  match Console.Invocation.ofWords words with
  | .ok { action := .save _ _, .. } => inputBytes .empty
  | _ => return .empty

def showSince (old new : Console.Screen) : IO Unit := do
  IO.print (String.ofList (new.out.toList.drop old.out.length))
  IO.eprint (String.ofList (new.err.toList.drop old.err.length))

partial def answerRequests (a : Console.Attended) : IO Unit := do
  let line ← (← IO.getStdin).getLine
  if line.isEmpty then return
  let host := a.live.host
  let request := Serve.Request.ofLine (Text.trim line)
  for listener in host.network.listeners do
    let response := Serve.answer host.disk listener.root request
    IO.println (Text.decimal response.status ++ " " ++ response.contentType)
    IO.println (String.ofList (Text.decodeLossy response.body.toList))
  answerRequests a

end Workbench.Main

def main (words : List String) : IO UInt32 := do
  let home ← IO.getEnv "HOME"
  let disk ← Workbench.Main.picture (home.filter (· ≠ "")) words
  let environment := home.toList.map fun dir => ("HOME", dir)
  let host : Workbench.Host :=
    { disk, table := ⟨[], [], []⟩, environment, clock := ← Workbench.Main.clock }
  match Workbench.Console.start words (← Workbench.Main.inputFor words) host with
  | (.ended code, s) =>
    Workbench.Main.writeBack disk s.host.disk
    Workbench.Main.showSince {} s.screen
    return code
  | (.serving a, s) =>
    Workbench.Main.writeBack disk s.host.disk
    Workbench.Main.showSince {} s.screen
    Workbench.Main.answerRequests a
    let stopped := Workbench.Console.interrupt a s
    Workbench.Main.showSince s.screen stopped.screen
    return 0
