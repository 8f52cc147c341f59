import Workbench.Config.Basic
import Workbench.Strategy.Plan
/-!
# The strategies

Projects are built by the bundler and served by the static server, or by an installed toolchain:
they are built by two of its commands, the second only if the first succeeds, and served by a
third. The commands run in the directory of the project. The settings say which strategy is in
force.
-/
namespace Workbench.Strategy

def bundlePlan (outDir : String) (p : Project) : Plan Bool := do
  say "Starting build process..."
  say divider
  let job : Bundle.Job := ⟨p.path, p.outputDir outDir⟩
  if ← Plan.look job.out .done then say "Cleaning old build..."
  say "Bundling JavaScript and CSS..."
  match ← Plan.bundle job .done with
  | .ok report =>
    say "Build completed successfully!"
    say divider
    unless report.wroteStylesheet do say "No stylesheets found, skipped bundle.css"
    say ("Generated " ++ Text.decimal report.filesWritten ++ " files in /" ++ outDir)
    say "Ready to run!"
    return true
  | .error e =>
    say ("Build failed: " ++ e.message)
    say divider
    say "Please check your code for errors"
    return false

def servePlan (outDir : String) (address : SocketAddress) (p : Project) :
    Plan (Outcome Session) := do
  say "Starting local web server..."
  say divider
  match ← Plan.listen ⟨p.outputDir outDir, address, none⟩ .done with
  | .error e => return .error e
  | .ok (bound, session) =>
    say "Server running!"
    say divider
    say ("URL: http://" ++ bound.text)
    say "Tip: edit code and rebuild to see changes"
    return .ok session

def builtin (outDir : String) (address : SocketAddress) : Strategy :=
  ⟨.builtin, outDir, bundlePlan outDir, servePlan outDir address⟩

/-- Run one of the commands. The answer is whether it was run and ended well. -/
def commandPlan (words : List String) (p : Project) : Plan Bool :=
  match Command.ofWords words with
  | .error e => do
    say ("Error: " ++ e.message)
    return false
  | .ok c => do
    say ("$ " ++ c.line)
    match ← Plan.run (c.inDir p.path) .done with
    | .ok code =>
      if code = 0 then return true
      else
        say ("`" ++ c.line ++ "` exited with code " ++ Text.decimalInt code)
        return false
    | .error e =>
      say ("Error: " ++ e.message)
      return false

def toolchainPlan (commands : ToolchainSettings) (p : Project) : Plan Bool := do
  say "Starting build process..."
  say divider
  unless ← commandPlan commands.install p do
    say "Dependency install failed, skipping build"
    return false
  unless ← commandPlan commands.build p do
    say "Build failed"
    return false
  say divider
  say "Build completed successfully!"
  return true

def launchPlan (commands : ToolchainSettings) (p : Project) : Plan (Outcome Session) :=
  match Command.ofWords commands.dev with
  | .error e => .done (.error e)
  | .ok c => do
    say "Starting dev server..."
    say ("$ " ++ c.line)
    match ← Plan.launch (c.inDir p.path) .done with
    | .error e => return .error e
    | .ok session =>
      say "Server running!"
      return .ok session

def toolchain (outDir : String) (commands : ToolchainSettings) : Strategy :=
  ⟨.toolchain, outDir, toolchainPlan commands, launchPlan commands⟩

def ofConfig (c : Config) : Outcome Strategy :=
  match c.build.strategy with
  | .builtin => c.serverAddress.map (builtin c.build.outDir)
  | .toolchain => .ok (toolchain c.build.outDir c.toolchain)

end Workbench.Strategy
