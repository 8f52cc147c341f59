import Workbench.Address.Reader
import Workbench.Error
import Workbench.Path.Basic
import Workbench.Project.BuildRecord
/-!
# Configuration

The settings of the workbench, with a default for each.
-/
namespace Workbench

/-- Where projects are kept. -/
structure WorkspaceSettings where
  path : String := "~/bento-projects"
  registry : String := "~/.bento/projects.json"
  deriving DecidableEq, Repr

/-- Where the server listens. -/
structure ServerSettings where
  host : String := "127.0.0.1"
  port : UInt16 := 3000
  deriving DecidableEq, Repr

/-- How projects are built, and the directory for the result as seen from the project. -/
structure BuildSettings where
  strategy : StrategyKind := .builtin
  outDir : String := "dist"
  deriving DecidableEq, Repr

/-- The commands of an installed toolchain. -/
structure ToolchainSettings where
  install : List String := ["npm", "install"]
  build : List String := ["npm", "run", "build"]
  dev : List String := ["npm", "run", "dev"]
  deriving DecidableEq, Repr

/-- Which diagnostics are shown, and the file that they are added to, if any. -/
structure LoggingSettings where
  level : String := "info"
  file : Option String := none
  deriving DecidableEq, Repr

/-- All settings. -/
structure Config where
  workspace : WorkspaceSettings := {}
  server : ServerSettings := {}
  build : BuildSettings := {}
  toolchain : ToolchainSettings := {}
  logging : LoggingSettings := {}
  deriving DecidableEq, Repr

namespace Config

def workspaceDir (c : Config) (home : Option String) : Path := Path.expandHome home c.workspace.path

def registryFile (c : Config) (home : Option String) : Path :=
  Path.expandHome home c.workspace.registry

def logFile? (c : Config) (home : Option String) : Option Path :=
  c.logging.file.map (Path.expandHome home)

def serverAddress (c : Config) : Outcome SocketAddress :=
  let text := c.server.host ++ ":" ++ Text.decimal c.server.port.toNat
  match Address.parse? text with
  | some address => .ok address
  | none => .error (.config (.badAddress text))

end Config

end Workbench
