import Workbench.Path.Basic
/-!
# Faults

What can go wrong in a single operation on the disk or the network, and how it is worded.
-/
namespace Workbench

/-- The reason why an operation of the operating system failed. -/
inductive Fault where
  | missing
  | notRunnable
  | denied
  | busy
  | exists
  | notDirectory
  | isDirectory
  | invalid
  | nameTooLong
  | notEmpty
  | tooManyLinks
  | addressInUse
  | addressUnavailable
  /-- A path with a NUL character names nothing. -/
  | nulInPath
  /-- File content that is not text. -/
  | notText
  /-- Something other than a regular file was to be copied. -/
  | irregularSource
  /-- A fault met at a path while walking a directory tree. -/
  | walking (path : Path) (reason : Fault)
  /-- A fault known only by its wording; `absent` tells whether it says that something is
  missing. -/
  | worded (absent : Bool) (text : String)
  deriving DecidableEq, Repr

def Fault.message : Fault → String
  | .missing => "No such file or directory (os error 2)"
  | .notRunnable => "Exec format error (os error 8)"
  | .denied => "Permission denied (os error 13)"
  | .busy => "Device or resource busy (os error 16)"
  | .exists => "File exists (os error 17)"
  | .notDirectory => "Not a directory (os error 20)"
  | .isDirectory => "Is a directory (os error 21)"
  | .invalid => "Invalid argument (os error 22)"
  | .nameTooLong => "File name too long (os error 36)"
  | .notEmpty => "Directory not empty (os error 39)"
  | .tooManyLinks => "Too many levels of symbolic links (os error 40)"
  | .addressInUse => "Address already in use (os error 98)"
  | .addressUnavailable => "Cannot assign requested address (os error 99)"
  | .nulInPath => "file name contained an unexpected NUL byte"
  | .notText => "stream did not contain valid UTF-8"
  | .irregularSource =>
    "the source path is neither a regular file nor a symlink to a regular file"
  | .walking path reason => "IO error for operation on " ++ path.text ++ ": " ++ reason.message
  | .worded _ text => text

/-- The wordings of a fault and of the faults behind it, outermost first. -/
def Fault.chain : Fault → List String
  | .walking path reason => (Fault.walking path reason).message :: reason.chain
  | reason => [reason.message]

def Fault.isAbsence : Fault → Bool
  | .missing => true
  | .walking _ reason => reason.isAbsence
  | .worded absent _ => absent
  | _ => false

end Workbench
