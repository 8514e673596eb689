import NamingAdvice.CommandLine

/-! The program. Arguments, files and the time come from the system; what is done with them
is decided by the command line and the session.
-/

namespace NamingAdvice.Program

open FileSystem (Cause Call Fault Path)
open Session (Outcome)

/-- The number of an error of the system, which some of its calls report negated. -/
def errorNumber (code : UInt32) : UInt32 :=
  min code (0 - code)

/-- The cause behind an error of the system, if it is one that a session has words for. -/
def causeOf? : IO.Error → Option Cause
  | .noFileOrDirectory .. => some .noEntry
  | .inappropriateType _ code _ =>
      some (if errorNumber code == 21 then .isDirectory else .notDirectory)
  | .alreadyExists .. => some .alreadyExists
  | .invalidArgument _ code _ =>
      if errorNumber code == 36 then some .nameTooLong else none
  | _ => none

/-- Tells the faults of an action from all other errors. An action on a path that is refused
for what it is, is not tried.
-/
def attempt {α : Type} (call : Cause → Call) (path : Path) (action : IO α)
    : IO (Except Fault α) := do
  if let some cause := path.refusal? then return .error ⟨cause, call cause, path⟩
  try
    return .ok (← action)
  catch error =>
    match causeOf? error with
    | some cause => return .error ⟨cause, call cause, path⟩
    | none => throw error

/-- A path as the system takes it. -/
def nameOf (path : Path) : String :=
  (String.fromUTF8? ⟨path.bytes.toArray⟩).getD "/"

def readFile (path : Path) : IO (Except Fault Bytes) :=
  attempt (fun cause => if cause = .isDirectory then .read else .open) path do
    return (← IO.FS.readBinFile (nameOf path)).toList

def storeFile (path : Path) (content : Bytes) : IO (Except Fault Unit) := do
  let parent := path.dropLast
  match ← attempt (fun _ => .makeDirectory) parent (IO.FS.createDirAll (nameOf parent)) with
  | .error fault => return .error fault
  | .ok () =>
      attempt (fun _ => .open) path (IO.FS.writeBinFile (nameOf path) ⟨content.toArray⟩)

/-- Runs a session on the files of the system. -/
def session (directory : Path) (file : Text) (options : CommandLine.Options) : IO Outcome := do
  let input := FileSystem.Path.resolve directory file
  match Session.inputValue input (FileSystem.Path.written directory file) (← readFile input) with
  | .error line => return (Session.refused [line]).outcome
  | .ok value =>
      let start ← IO.monoMsNow
      let findings ← Review.examine (fun _ => pure ()) (some value)
      let finish ← IO.monoMsNow
      match Session.plan directory options (.ofFindings (finish - start : Int) findings) with
      | .refuse lines => return (Session.refused lines).outcome
      | .present lines => return (Session.presented lines).outcome
      | .deliver lines target names content =>
          return (Session.delivered input target names lines (← storeFile target content)).outcome

/-- Runs a command on the files of the system. -/
def command (arguments : List Text) : IO Outcome := do
  match CommandLine.interpret arguments with
  | .notice notice => return notice.outcome
  | .check file options =>
      let directory := FileSystem.Path.resolve [] (text (← IO.FS.realPath ".").toString)
      session directory file options

end NamingAdvice.Program

open NamingAdvice in
def main (arguments : List String) : IO UInt32 := do
  let outcome ←
    try Program.command (arguments.map text)
    catch error =>
      pure (Session.refused [text "💥 Unexpected error: " ++ text (toString error)]).outcome
  (← IO.getStdout).write ⟨outcome.stdout.toArray⟩
  (← IO.getStderr).write ⟨outcome.stderr.toArray⟩
  return UInt32.ofNat outcome.exitCode
