import Workbench.Serve.Sandbox
/-!
# Answers to requests

Every method and path is answered from one root directory: with a file, with the index of a
directory, or with a refusal. The content type of a file goes by the extension of its name, in
either case.
-/
namespace Workbench.Serve

def typeOfExtension (extension : String) : String :=
  match extension with
  | "html" | "htm" => "text/html"
  | "js" | "jsx" => "application/javascript"
  | "ts" | "tsx" => "application/typescript"
  | "css" => "text/css"
  | "json" => "application/json"
  | "png" => "image/png"
  | "jpg" | "jpeg" => "image/jpeg"
  | "gif" => "image/gif"
  | "svg" => "image/svg+xml"
  | "ico" => "image/x-icon"
  | "woff" => "font/woff"
  | "woff2" => "font/woff2"
  | "ttf" => "font/ttf"
  | "eot" => "application/vnd.ms-fontobject"
  | _ => "application/octet-stream"

def contentType (p : Path) : String :=
  typeOfExtension (String.ofList ((p.fileExtension?.getD "").toList.map Char.toLower))

/-- What a request path asks for. -/
inductive Lookup where
  | file (p : Path)
  | forbidden
  | notFound
  deriving DecidableEq, Repr

def directoryIndex : String := "index.html"

def lookup (d : Disk) (root : Path) (request : String) : Lookup :=
  let request := if request = "/" then "/" ++ directoryIndex else request
  match resolveWithin d root request with
  | .missing => .notFound
  | .file p => .file p
  | .directory dir =>
    -- the index may be a link too, and is resolved once more with the directory as the root
    match resolveWithin d dir directoryIndex with
    | .file p => .file p
    | _ => .forbidden

/-- The answer to a request. -/
structure Response where
  status : Nat
  contentType : String
  contentLength : Nat
  body : ByteArray
  deriving DecidableEq

def Response.message (status : Nat) (text : String) : Response :=
  ⟨status, "text/plain", text.utf8ByteSize, text.toUTF8⟩

def respond (d : Disk) (root : Path) (request : String) : Response :=
  match lookup d root request with
  | .forbidden => .message 403 "Directory listing not allowed"
  | .notFound => .message 404 "File not found"
  | .file p =>
    match d.readBytes p with
    | .ok content => ⟨200, contentType p, content.size, content⟩
    | .error _ => .message 404 "File not found"

/-- A request: its method and its target. -/
structure Request where
  method : String
  target : String
  deriving DecidableEq, Repr

/-- A request as written on its first line; without a method it asks for a target. -/
def Request.ofLine (line : String) : Request :=
  match Text.cutAt? [' '] line.toList with
  | some (method, target) => ⟨String.ofList method, String.ofList target⟩
  | none => ⟨"GET", line⟩

/-- The path of a target: what follows the host, up to the query. -/
def Request.path (r : Request) : String :=
  let target := r.target.toList
  -- a target may name the host as well
  let written := match Text.cutAt? "://".toList target with
    | some (_, rest) => if target.head? = some '/' then target else rest.dropWhile (· ≠ '/')
    | none => target
  let path := written.takeWhile fun c => c != '?' && c != '#'
  if path = [] then "/" else String.ofList path

/-- The answer to a request. A request for the head alone is answered without the body. -/
def answer (d : Disk) (root : Path) (r : Request) : Response :=
  let response := respond d root r.path
  if r.method = "HEAD" then { response with body := .empty } else response

end Workbench.Serve
