import Workbench.Disk.Edit
import Workbench.Json.Printer
import Workbench.Text.LowerCase
/-!
# The starter project

The files of a new project: a small view in typed script that the bundler handles by itself, and
the settings for building it with a package manager instead.
-/
namespace Workbench.Starter

def unlines (lines : List String) : String := String.join (lines.map (· ++ "\n"))

/-- The package name for a project: in lower case, with dashes for blanks. -/
def packageName (name : String) : String :=
  String.ofList ((Text.lower (Text.trim name)).toList.map fun c => if c = ' ' then '-' else c)

def packageJson (name : String) : Json :=
  .record
    [("dependencies", .record [("react", .text "^18.2.0"), ("react-dom", .text "^18.2.0")]),
     ("name", .text (packageName name)),
     ("private", .bool true),
     ("scripts", .record
       [("build", .text "vite build"), ("dev", .text "vite"), ("preview", .text "vite preview")]),
     ("type", .text "module"),
     ("version", .text "0.1.0")]

def checkerJson : Json :=
  .record
    [("compilerOptions", .record
       [("allowImportingTsExtensions", .bool true),
        ("isolatedModules", .bool true),
        ("jsx", .text "react-jsx"),
        ("lib", .array [.text "ES2020", .text "DOM", .text "DOM.Iterable"]),
        ("module", .text "ESNext"),
        ("moduleResolution", .text "bundler"),
        ("noEmit", .bool true),
        ("resolveJsonModule", .bool true),
        ("skipLibCheck", .bool true),
        ("strict", .bool true),
        ("target", .text "ES2020"),
        ("useDefineForClassFields", .bool true)]),
     ("include", .array [.text "src"])]

def documentHtml (name : String) : String :=
  unlines
    ["<!DOCTYPE html>",
     "<html lang=\"en\">",
     "  <head>",
     "    <meta charset=\"UTF-8\" />",
     "    <meta name=\"viewport\" content=\"width=device-width, initial-scale=1.0\" />",
     "    <title>" ++ name ++ "</title>",
     "  </head>",
     "  <body>",
     "    <div id=\"root\"></div>",
     "  </body>",
     "</html>"]

def viewScript (name : String) : String :=
  unlines
    ["import \x7b useState \x7d from 'react';",
     "import './App.css';",
     "",
     "function App() \x7b",
     "  const [count, setCount] = useState(0);",
     "",
     "  return (",
     "    <div className=\"App\">",
     "      <header className=\"App-header\">",
     "        <h1>Welcome to " ++ name ++ "</h1>",
     "        <p>Built with React + TypeScript</p>",
     "        <div className=\"card\">",
     "          <button onClick=\x7b() => setCount(count + 1)\x7d>",
     "            count is \x7bcount\x7d",
     "          </button>",
     "          <p>Edit <code>src/App.tsx</code> and rebuild</p>",
     "        </div>",
     "      </header>",
     "    </div>",
     "  );",
     "\x7d",
     "",
     "export default App;"]

def mountScript : String :=
  unlines
    ["import React from 'react';",
     "import ReactDOM from 'react-dom/client';",
     "import App from './App';",
     "import './index.css';",
     "",
     "ReactDOM.createRoot(document.getElementById('root')!).render(",
     "  <React.StrictMode>",
     "    <App />",
     "  </React.StrictMode>,",
     ");"]

def viewStyles : String :=
  unlines
    [".App \x7b",
     "  text-align: center;",
     "  min-height: 100vh;",
     "  display: flex;",
     "  flex-direction: column;",
     "  align-items: center;",
     "  justify-content: center;",
     "  background: linear-gradient(135deg, #667eea 0%, #764ba2 100%);",
     "  color: white;",
     "\x7d",
     "",
     ".App-header \x7b",
     "  padding: 2rem;",
     "  max-width: 600px;",
     "\x7d",
     "",
     ".card \x7b",
     "  background: rgba(255, 255, 255, 0.1);",
     "  padding: 2em;",
     "  border-radius: 16px;",
     "\x7d",
     "",
     "button \x7b",
     "  background: #ffffff;",
     "  color: #667eea;",
     "  border: none;",
     "  border-radius: 8px;",
     "  padding: 0.8em 1.5em;",
     "  font-size: 1.1em;",
     "  font-weight: 600;",
     "  cursor: pointer;",
     "\x7d",
     "",
     "code \x7b",
     "  background-color: rgba(255, 255, 255, 0.2);",
     "  padding: 0.2em 0.4em;",
     "  border-radius: 4px;",
     "  font-family: 'Courier New', monospace;",
     "\x7d"]

def pageStyles : String :=
  unlines
    ["* \x7b",
     "  margin: 0;",
     "  padding: 0;",
     "  box-sizing: border-box;",
     "\x7d",
     "",
     "body \x7b",
     "  font-family: -apple-system, BlinkMacSystemFont, 'Segoe UI', 'Roboto', sans-serif;",
     "  -webkit-font-smoothing: antialiased;",
     "  -moz-osx-font-smoothing: grayscale;",
     "\x7d"]

def readme (name : String) : String :=
  unlines
    ["# " ++ name,
     "",
     "React + TypeScript starter created by bento.",
     "",
     "## Workflow",
     "",
     "1. Edit files in `src/`",
     "2. `bento build \"" ++ name ++ "\"` bundles into `dist/`",
     "3. `bento run \"" ++ name ++ "\"` serves `dist/` on the configured port",
     "",
     "The built-in bundler strips TypeScript syntax, concatenates sources and loads",
     "React from esm.sh. Use `--strategy toolchain` to build with npm instead."]

def directories : List String := ["src", "public", "dist"]

/-- The files of a new project with their contents, in the order of writing. -/
def files (name : String) : List (String × String) :=
  [("package.json", (packageJson name).render),
   ("tsconfig.json", checkerJson.render),
   ("public/index.html", documentHtml name),
   ("src/App.tsx", viewScript name),
   ("src/App.css", viewStyles),
   ("src/main.tsx", mountScript),
   ("src/index.css", pageStyles),
   ("README.md", readme name)]

def write (root : Path) (name : String) : Task Error Unit := do
  for dir in directories do
    Disk.makeDirsAt (root.child dir)
  for (file, content) in files name do
    Disk.writeText (root.join ⟨file⟩) content

end Workbench.Starter
