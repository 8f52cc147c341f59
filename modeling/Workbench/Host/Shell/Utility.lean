import Workbench.Disk.Edit
import Workbench.Disk.Walk
import Workbench.Host.Shell.Format
/-!
# The utilities that scripts use

Each utility gets its arguments, the disk and its input, and answers with an exit code and what
it writes.
-/
namespace Workbench.Shell

/-- How a utility is called. The working directory of the disk is that of the script. -/
structure Invocation where
  name : String
  args : List String
  disk : Disk
  input : List UInt8

/-- What a utility has done. -/
structure Result where
  status : Nat := 0
  output : List UInt8 := []
  error : String := ""
  disk : Disk
  input : List UInt8

namespace Invocation

def ends (i : Invocation) (status : Nat) : Result :=
  { status, disk := i.disk, input := i.input }

def writes (i : Invocation) (output : List UInt8) : Result :=
  { output, disk := i.disk, input := i.input }

/-- The arguments that are not options, and the letters of the options. -/
def split (i : Invocation) : List String × List Char :=
  let isOption (a : String) := a.toList.head? == some '-' && 1 < a.length
  (i.args.filter fun a => !isOption a, (i.args.filter isOption).flatMap fun a => a.toList.drop 1)

end Invocation

def plainMessage (f : Fault) : String :=
  match Text.cutAt? " (os error".toList f.message.toList with
  | some (text, _) => String.ofList text
  | none => f.message

/-- Do something with each argument; a fault is written as an error and ends in code one. -/
def forEachArgument (i : Invocation) (args : List String) (complaint : String → String)
    (work : String → Disk → Except Fault (List UInt8 × Disk)) : Result :=
  args.foldl (fun r arg =>
    match work arg r.disk with
    | .ok (bytes, disk) => { r with output := r.output ++ bytes, disk }
    | .error f =>
      let line := i.name ++ ": " ++ complaint arg ++ ": " ++ plainMessage f ++ "\n"
      { r with status := 1, error := r.error ++ line }) (i.ends 0)

def changing (f : Disk → Except Fault Disk) (d : Disk) : Except Fault (List UInt8 × Disk) :=
  (f d).map fun d => ([], d)

def doing (t : Task Fault Unit) (d : Disk) : Except Fault (List UInt8 × Disk) :=
  match t d with
  | (.ok (), d) => .ok ([], d)
  | (.error f, _) => .error f

def echo (escapes : Bool) (i : Invocation) : Result :=
  let (unended, args) := match i.args with
    | "-n" :: rest => (true, rest)
    | args => (false, args)
  let (escapes, args) := match args with
    | "-e" :: rest => if escapes then (true, args) else (true, rest)
    | args => (escapes, args)
  let text := " ".intercalate args
  if escapes then
    let (bytes, goesOn) := escaped true (text.length + 1) text.toList
    i.writes (if goesOn && !unended then bytes ++ [10] else bytes)
  else i.writes (text.toUTF8.toList ++ (if unended then [] else [10]))

def cat (i : Invocation) : Result :=
  let args := i.split.1
  if args = [] then { i.writes i.input with input := [] }
  else forEachArgument i args id fun arg d => do
    return ((← d.readBytes ⟨arg⟩).toList, d)

/-- Write the names in the directories of the arguments, or in the working directory. -/
def ls (i : Invocation) : Result :=
  let (args, options) := i.split
  let shown (name : String) :=
    options.contains 'a' || options.contains 'A' || name.toList.head? != some '.'
  let complaint (arg : String) := "cannot access '" ++ arg ++ "'"
  let r := forEachArgument i (if args = [] then ["."] else args) complaint fun arg d => do
    let names ←
      if d.isDir ⟨arg⟩ && !options.contains 'd' then
        (d.readNames ⟨arg⟩).map fun names => sortNames (names.filter shown)
      else (d.locate true ⟨arg⟩).map fun _ => [arg]
    return (names.flatMap fun name => name.toUTF8.toList ++ [10], d)
  { r with status := 2 * r.status }

def mkdir (i : Invocation) : Result :=
  let (args, options) := i.split
  forEachArgument i args (fun arg => "cannot create directory '" ++ arg ++ "'") fun arg =>
    if options.contains 'p' then doing (Disk.makeDirs ⟨arg⟩) else changing (Disk.makeDir · ⟨arg⟩)

def touch (i : Invocation) : Result :=
  forEachArgument i i.split.1 (fun arg => "cannot touch '" ++ arg ++ "'") fun arg =>
    changing fun d => if d.isThere ⟨arg⟩ then .ok d else (d.openForWriting false ⟨arg⟩).map Prod.snd

def rm (i : Invocation) : Result :=
  let (args, options) := i.split
  let deep := options.contains 'r' || options.contains 'R'
  forEachArgument i args (fun arg => "cannot remove '" ++ arg ++ "'") fun arg d =>
    if options.contains 'f' && (d.locate false ⟨arg⟩).toOption.isNone then .ok ([], d)
    else if deep && (d.isDir ⟨arg⟩) then doing (Disk.removeTree ⟨arg⟩) d
    else changing (Disk.removeFile · ⟨arg⟩) d

/-- The place that a file gets which is copied or moved to a target. -/
def placeIn (d : Disk) (source target : String) : Path :=
  if d.isDir ⟨target⟩ then (Path.mk target).child ((Path.mk source).fileName?.getD source)
  else ⟨target⟩

/-- Copy or move the files of all arguments but the last to the last one. -/
def transfer (work : Path → Path → Disk → Except Fault Disk) (i : Invocation) : Result :=
  let args := i.split.1
  match args.getLast? with
  | none => i.ends 1
  | some target =>
    forEachArgument i args.dropLast (fun arg => "cannot stat '" ++ arg ++ "'") fun arg =>
      changing fun d => work ⟨arg⟩ (placeIn d arg target) d

def byteLines (bytes : List UInt8) : List (List UInt8) := bytes.splitBy fun a _ => a ≠ 10

def head (i : Invocation) : Result :=
  let (count, files) := match i.args with
    | "-n" :: n :: rest => (Text.numberOf 10 n.toList, rest)
    | a :: rest =>
      match a.toList with
      | '-' :: 'n' :: n => (Text.numberOf 10 n, rest)
      | '-' :: n => (Text.numberOf 10 n, rest)
      | _ => (10, i.args)
    | [] => (10, [])
  let r := cat { i with args := files }
  { r with output := ((byteLines r.output).take count).flatten }

def seq (i : Invocation) : Result :=
  let (first, last) := match i.args.map fun a => numberIn a.toList with
    | [last] => (1, last)
    | [first, last] => (first, last)
    | _ => (1, 0)
  let count := (last - first + 1).toNat
  i.writes ((List.range count).flatMap fun (n : Nat) =>
    (Text.decimalInt (first + n) ++ "\n").toUTF8.toList)

def holds? (d : Disk) : List String → Option Bool
  | [] => some false
  | "!" :: rest => (holds? d rest).map (!·)
  | [a] => some (a ≠ "")
  | [op, a] =>
    match op with
    | "-n" => some (a ≠ "")
    | "-z" => some (a = "")
    | "-e" => some (d.isThere ⟨a⟩)
    | "-f" => some (d.isFile ⟨a⟩)
    | "-d" => some (d.isDir ⟨a⟩)
    | "-r" | "-w" => some (d.isThere ⟨a⟩)
    | "-L" | "-h" => some (match d.locate false ⟨a⟩ with
        | .ok l => match d.get? l with
          | some (.link _) => true
          | _ => false
        | .error _ => false)
    | "-s" => some (match d.readBytes ⟨a⟩ with
        | .ok bytes => bytes.size ≠ 0
        | .error _ => d.isDir ⟨a⟩)
    | "-x" => some (match d.entryAt ⟨a⟩ with
        | .ok (.file _ runnable) => runnable
        | .ok .directory => true
        | _ => false)
    | _ => none
  | [a, op, b] =>
    let (m, n) := (numberIn a.toList, numberIn b.toList)
    match op with
    | "=" | "==" => some (a = b)
    | "!=" => some (a ≠ b)
    | "-eq" => some (m = n)
    | "-ne" => some (m ≠ n)
    | "-lt" => some (decide (m < n))
    | "-le" => some (decide (m ≤ n))
    | "-gt" => some (decide (n < m))
    | "-ge" => some (decide (n ≤ m))
    | _ => none
  | _ => none

def test (args : List String) (i : Invocation) : Result :=
  match holds? i.disk args with
  | some true => i.ends 0
  | some false => i.ends 1
  | none => i.ends 2

def utility? (plainEcho : Bool) (name : String) : Option (Invocation → Result) :=
  match name with
  | "true" | ":" | "wait" | "trap" | "set" => some (·.ends 0)
  | "false" => some (·.ends 1)
  | "echo" => some (echo (!plainEcho))
  | "printf" => some fun i => match i.args with
      | [] => i.ends 2
      | format :: args => i.writes (formatAll format.toList (args.length + 1) args)
  | "cat" => some cat
  | "ls" => some ls
  | "pwd" => some fun i => i.writes ((Location.path i.disk.workDir).text ++ "\n").toUTF8.toList
  | "mkdir" => some mkdir
  | "touch" => some touch
  | "rm" => some rm
  | "rmdir" => some fun i => forEachArgument i i.split.1 (fun arg => "failed to remove '" ++ arg ++ "'")
      fun arg => changing (Disk.removeDir · ⟨arg⟩)
  | "cp" => some fun i =>
      transfer (fun source target d => d.copyFile source target) i
  | "mv" => some (transfer fun source target d => d.rename source target)
  | "head" => some head
  | "seq" => some seq
  | "basename" => some fun i =>
      i.writes (((Path.mk (i.args.headD "")).fileName?.getD "/") ++ "\n").toUTF8.toList
  | "dirname" => some fun i =>
      let dir := ((Path.mk (i.args.headD "")).parent?.map Path.text).getD "/"
      i.writes ((if dir = "" then "." else dir) ++ "\n").toUTF8.toList
  | "test" => some fun i => test i.args i
  | "[" => some fun i =>
      if i.args.getLast? = some "]" then test i.args.dropLast i else i.ends 2
  | _ => none

end Workbench.Shell
