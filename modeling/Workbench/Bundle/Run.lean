import Workbench.Bundle.Output
import Workbench.Disk.Copy
/-!
# Building a bundle

The output directory is made afresh, and gets the script bundle, the style sheet if there are
styles, the entry document, and then every file of the public directory except entry documents.
A failure leaves the output directory as far as it got.
-/
namespace Workbench.Bundle

/-- What a bundle was built from and what was written. -/
structure Report where
  scripts : List Path
  styles : List Path
  wroteStylesheet : Bool
  assetsCopied : Nat
  filesWritten : Nat

/-- A project directory and the directory to build into. -/
structure Job where
  root : Path
  out : Path

namespace Job

def src (job : Job) : Path := job.root.child "src"

def assets (job : Job) : Path := job.root.child "public"

def recreateOut (job : Job) : Task Error Unit := do
  if ← Task.look (Disk.isThere · job.out) then
    Task.mapError (Error.ofFault job.out) (Disk.removeTree job.out)
  Disk.makeDirsAt job.out

def document (job : Job) (d : Disk) : Outcome String :=
  let own := job.assets.child documentName
  if d.isFile own then d.fileText own
  else .ok (defaultDocument (job.root.fileName?.getD "App"))

def run (job : Job) : Task Error Report := do
  job.recreateOut
  let document ← Task.ask job.document
  -- by now the old output is gone, whether there are sources or not
  unless ← Task.look (Disk.isDir · job.src) do throw (.notFound job.src)
  let (scripts, styles) ← Task.ask (discoverSources · job.src)
  let scripts := orderScripts scripts
  let script ← Task.ask (bundleScripts · job.src scripts)
  Disk.writeText (job.out.child scriptName) script
  let style ← Task.ask (bundleStyles · job.src styles)
  let css := style.getD ""
  -- styles that come to nothing make no file
  if css ≠ "" then Disk.writeText (job.out.child styleName) css
  Disk.writeText (job.out.child documentName) (injectReferences document)
  let assetsCopied ←
    -- public files come last and replace generated ones of the same name
    if ← Task.look (Disk.isDir · job.assets) then
      Disk.copyTree job.assets job.out (some documentName)
    else pure 0
  let filesWritten ← Task.look (Disk.countFiles · job.out)
  return ⟨scripts, styles, css ≠ "", assetsCopied, filesWritten⟩

end Job

end Workbench.Bundle
