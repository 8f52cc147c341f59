import Workbench.Bundle.Source
import Workbench.Script.Rules
import Workbench.Text.Basic
/-!
# The bundle's texts

The page that loads the bundle has the references to script and style sheet in front of the first
closing tags of body and head. The script bundle is the prepared scripts in order between a head
that loads the run-time libraries and a tail that mounts the view. The style sheet is the style
files in order.
-/
namespace Workbench.Bundle

def documentName : String := "index.html"

def scriptName : String := "bundle.js"

def styleName : String := "bundle.css"

def mountId : String := "root"

/-- A text with an insertion in front of the first occurrence of a mark, if there is one. -/
def insertBefore (mark insertion text : List Char) : List Char :=
  match Text.cutAt? mark text with
  | some (before, after) => before ++ insertion ++ mark ++ after
  | none => text

def styleLink : String := "<link rel=\"stylesheet\" href=\"/" ++ styleName ++ "\" />"

def scriptTag : String := "<script type=\"module\" src=\"/" ++ scriptName ++ "\"></script>"

/-- A document with the references to style sheet and script put in. -/
def injectReferences (document : String) : String :=
  let linked := insertBefore "</head>".toList styleLink.toList document.toList
  String.ofList (insertBefore "</body>".toList scriptTag.toList linked)

/-- The document of a project that brings none: a title and the mount element. -/
def defaultDocument (title : String) : String :=
  "<!DOCTYPE html>\n<html lang=\"en\">\n  <head>\n    <meta charset=\"UTF-8\" />\n" ++
  "    <meta name=\"viewport\" content=\"width=device-width, initial-scale=1.0\" />\n" ++
  "    <title>" ++ title ++ "</title>\n  </head>\n  <body>\n    <div id=\"" ++ mountId ++
  "\"></div>\n  </body>\n</html>\n"

def runtimeImports : String :=
  "import React from 'https://esm.sh/react@18.2.0';\n" ++
  "import ReactDOM from 'https://esm.sh/react-dom@18.2.0/client';\n"

def entrySymbol : String := "App"

def mountScript : String :=
  "// Auto-mount\nconst __mountNode = document.getElementById('" ++ mountId ++ "');\n" ++
  "if (__mountNode && typeof " ++ entrySymbol ++ " !== 'undefined') \x7b\n" ++
  "  ReactDOM.createRoot(__mountNode).render(React.createElement(" ++ entrySymbol ++ "));\n" ++
  "\x7d\n"

def sections (d : Disk) (heading : Path → String) (prepare : String → String) :
    List Path → Outcome String
  | [] => .ok ""
  | p :: rest => do
    let source ← d.fileText p
    let more ← sections d heading prepare rest
    return heading p ++ prepare source ++ "\n\n" ++ more

def bundleScripts (d : Disk) (src : Path) (scripts : List Path) : Outcome String := do
  let body ← sections d (fun p => "// File: " ++ label src p ++ "\n") Script.transform scripts
  return runtimeImports ++ "\n" ++ body ++ mountScript

def bundleStyles (d : Disk) (src : Path) (styles : List Path) : Outcome (Option String) :=
  if styles = [] then .ok none
  else do
    return some (← sections d (fun p => "/* File: " ++ label src p ++ " */\n") id styles)

end Workbench.Bundle
