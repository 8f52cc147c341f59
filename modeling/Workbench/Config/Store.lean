import Workbench.Config.Basic
import Workbench.Toml.Printer
import Workbench.Toml.Reader
import Workbench.Disk.Edit
/-!
# The configuration as a document

A document has a section for each group of settings. What it leaves out keeps its default, and
what the settings do not know does not count. A group may also be given as the list of its
values, in order and as far as needed.

The document of a user is kept below the home directory. Where there is none, a file in the
working directory counts, and where there is neither, the defaults do.
-/
namespace Workbench

namespace Toml

/-- The values of a group of settings, by name or by place. A date has none of them. -/
def group? (names : List String) : Toml → Option (List (Option Toml))
  | .table entries => some (names.map fun name => entries.lookup name)
  | .list items => some (names.zipIdx.map fun (_, i) => items[i]?)
  | .moment => some (names.map fun _ => none)
  | _ => none

def orDefault (read : Toml → Option α) (default : α) : Option Toml → Option α
  | none => some default
  | some v => read v

def text? : Toml → Option String
  | .text s => some s
  | _ => none

def texts? : Toml → Option (List String)
  | .list items => items.mapM text?
  | _ => none

def word16? : Toml → Option UInt16
  | .whole i => if 0 ≤ i ∧ i < UInt16.size then some (UInt16.ofNat i.toNat) else none
  | _ => none

def isEmpty : Toml → Bool
  | .list [] | .table [] => true
  | _ => false

/-- A kind of strategy, as a text, or as the only key of a table, with nothing in it. -/
def strategy? : Toml → Option StrategyKind
  | .text s => StrategyKind.ofName? s
  | .table [(name, inner)] => if inner.isEmpty then StrategyKind.ofName? name else none
  | _ => none

end Toml

namespace Config

def workspace? (v : Toml) : Option WorkspaceSettings := do
  match ← v.group? ["path", "registry"] with
  | [path, registry] =>
    let base : WorkspaceSettings := {}
    return ⟨← Toml.orDefault Toml.text? base.path path,
      ← Toml.orDefault Toml.text? base.registry registry⟩
  | _ => none

def server? (v : Toml) : Option ServerSettings := do
  match ← v.group? ["host", "port"] with
  | [host, port] =>
    let base : ServerSettings := {}
    return ⟨← Toml.orDefault Toml.text? base.host host,
      ← Toml.orDefault Toml.word16? base.port port⟩
  | _ => none

def build? (v : Toml) : Option BuildSettings := do
  match ← v.group? ["strategy", "out_dir"] with
  | [strategy, outDir] =>
    let base : BuildSettings := {}
    return ⟨← Toml.orDefault Toml.strategy? base.strategy strategy,
      ← Toml.orDefault Toml.text? base.outDir outDir⟩
  | _ => none

def toolchain? (v : Toml) : Option ToolchainSettings := do
  match ← v.group? ["install", "build", "dev"] with
  | [install, build, dev] =>
    let base : ToolchainSettings := {}
    return ⟨← Toml.orDefault Toml.texts? base.install install,
      ← Toml.orDefault Toml.texts? base.build build, ← Toml.orDefault Toml.texts? base.dev dev⟩
  | _ => none

def logging? (v : Toml) : Option LoggingSettings := do
  match ← v.group? ["level", "file"] with
  | [level, file] =>
    let base : LoggingSettings := {}
    return ⟨← Toml.orDefault Toml.text? base.level level,
      ← Toml.orDefault (fun v => v.text?.map some) base.file file⟩
  | _ => none

def ofToml? (v : Toml) : Option Config := do
  match ← v.group? ["workspace", "server", "build", "toolchain", "logging"] with
  | [workspace, server, build, toolchain, logging] =>
    return ⟨← Toml.orDefault workspace? {} workspace, ← Toml.orDefault server? {} server,
      ← Toml.orDefault build? {} build, ← Toml.orDefault toolchain? {} toolchain,
      ← Toml.orDefault logging? {} logging⟩
  | _ => none

def parse (text : String) : Outcome Config :=
  match (Toml.parse? text).bind ofToml? with
  | some c => .ok c
  | none => .error (.config .unreadable)

def textList (texts : List String) : Toml := .list (texts.map Toml.text)

def sections (c : Config) : List Toml.Section :=
  [⟨"workspace", [("path", .text c.workspace.path), ("registry", .text c.workspace.registry)]⟩,
   ⟨"server", [("host", .text c.server.host), ("port", .whole c.server.port.toNat)]⟩,
   ⟨"build", [("strategy", .text c.build.strategy.name), ("out_dir", .text c.build.outDir)]⟩,
   ⟨"toolchain",
    [("install", textList c.toolchain.install), ("build", textList c.toolchain.build),
     ("dev", textList c.toolchain.dev)]⟩,
   ⟨"logging",
    ("level", .text c.logging.level) ::
      (c.logging.file.map fun file => ("file", Toml.text file)).toList⟩]

def render (c : Config) : String := Toml.render c.sections

def userFile? (home : Option String) : Option Path :=
  home.map fun dir => (Path.mk dir).join ⟨".config/bento/config.toml"⟩

def localFile : Path := ⟨"bento.toml"⟩

def load (d : Disk) (home : Option String) : Outcome Config :=
  match ((userFile? home).toList ++ [localFile]).find? (d.isThere ·) with
  | some file => do parse (← (d.readText file).mapError (Error.io file))
  | none => .ok {}

def save (c : Config) (home : Option String) : Task Error Unit := do
  match userFile? home with
  | none => throw (.config .noHome)
  | some file =>
    if let some dir := file.parent? then Task.mapError (Error.io dir) (Disk.makeDirs dir)
    Task.mapError (Error.io file) (Task.change (Disk.writeBytes · file c.render.toUTF8))

end Config

end Workbench
