import NamingAdvice.FileSystem.Path
import NamingAdvice.Text.Quotation

/-! Why the system refuses to do something with a file, and the words it has for it. Some
paths are refused for what they are, before anything is looked up.
-/

namespace NamingAdvice.FileSystem

inductive Cause where
  | noEntry
  | notDirectory
  | isDirectory
  | alreadyExists
  | nameTooLong
  /-- The path has an octet that no name can have. -/
  | zeroOctet
deriving DecidableEq, Repr

/-- What the system was asked to do. -/
inductive Call where
  | open
  | read
  | makeDirectory
deriving DecidableEq, Repr

structure Fault where
  cause : Cause
  call : Call
  path : Path
deriving DecidableEq, Repr

namespace Cause

def label : Cause → Text
  | .noEntry => text "ENOENT"
  | .notDirectory => text "ENOTDIR"
  | .isDirectory => text "EISDIR"
  | .alreadyExists => text "EEXIST"
  | .nameTooLong => text "ENAMETOOLONG"
  | .zeroOctet => text "ERR_INVALID_ARG_VALUE"

def description : Cause → Text
  | .noEntry => text "no such file or directory"
  | .notDirectory => text "not a directory"
  | .isDirectory => text "illegal operation on a directory"
  | .alreadyExists => text "file already exists"
  | .nameTooLong => text "name too long"
  | .zeroOctet => text "must be a string, Uint8Array, or URL without null bytes"

end Cause

/-- The most octets that a path can have. -/
def longestPath : Nat := 4095

/-- Why a path is refused, if it is, whatever there is in the file system. -/
def Path.refusal? (path : Path) : Option Cause :=
  if path.bytes.contains 0 then some .zeroOctet
  else if longestPath < path.bytes.length then some .nameTooLong
  else none

namespace Fault

/-- What was refused. A file that is open already is read without its path. -/
def attempt (fault : Fault) : Text :=
  match fault.call with
  | .open => text "open '" ++ fault.path.text ++ text "'"
  | .read => text "read"
  | .makeDirectory => text "mkdir '" ++ fault.path.text ++ text "'"

/-- What the system was given as a path, for a file with these names: the file or, to make
directories, its folder.
-/
def argument (fault : Fault) (names : List Text) : Text :=
  Path.spell (if fault.call = .makeDirectory then names.dropLast else names)

/-- The words for a fault about a file with these names. A path that cannot be one is quoted as
it is written.
-/
def message (fault : Fault) (names : List Text) : Text :=
  if fault.cause = .zeroOctet then
    text "The argument 'path' " ++ fault.cause.description ++ text ". Received "
      ++ Quotation.excerpt (fault.argument names)
  else fault.cause.label ++ text ": " ++ fault.cause.description ++ text ", " ++ fault.attempt

end Fault

end NamingAdvice.FileSystem
