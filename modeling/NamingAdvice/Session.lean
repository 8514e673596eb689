import NamingAdvice.CommandLine.Options
import NamingAdvice.FileSystem
import NamingAdvice.Json.Reader
import NamingAdvice.Report

/-! One session: a file is read and reviewed, the result is shown, and the JSON report is
written to a second file if that is asked for. A session ends well whenever the input was
reviewed and the report, if any, was written; what was shown before a failure stays shown.
-/

namespace NamingAdvice.Session

open CommandLine (Options)
open FileSystem (Path Fault)

/-- How a session ends for whoever started it. -/
structure Outcome where
  exitCode : Nat
  stdout : Bytes
  stderr : Bytes
deriving DecidableEq, Repr

/-- Lines as they go to a console. -/
def printed (lines : List Text) : Bytes :=
  lines.flatMap (fun line => Utf8.encode (line ++ text "\n"))

/-- The exit code of a session and the lines that it hands to the console, those that it shows
and those that it says.
-/
structure Transcript where
  exitCode : Nat
  shown : List Text
  said : List Text
deriving DecidableEq, Repr

def Transcript.outcome (transcript : Transcript) : Outcome :=
  ⟨transcript.exitCode, printed transcript.shown, printed transcript.said⟩

/-- How the line about an input that is no JSON starts. The mistake follows. -/
def unreadable (input : Path) : Text :=
  text "❌ Invalid JSON in " ++ input.text ++ text ": "

/-- What is said in a session about an input of a fault about a file with these names. -/
def faultLine (input : Path) (names : List Text) (fault : Fault) : Text :=
  if fault.cause = .noEntry then text "❌ Not found: " ++ input.text
  else text "💥 Unexpected error: " ++ fault.message names

/-- The JSON value that the input holds, or the line that says why there is none. -/
def inputValue (input : Path) (names : List Text) (content : Except Fault Bytes)
    : Except Text Json :=
  match content with
  | .error fault => .error (faultLine input names fault)
  | .ok bytes =>
      (Json.read (Utf8.decode bytes)).mapError (fun mistake =>
        unreadable input ++ mistake.message)

/-- The lines about an input that is no forest. -/
def rejection (errors : List InputError) : List Text :=
  (text "❌ Invalid declaration tree, " ++ Text.ofNat errors.length ++ text " error(s):")
    :: errors.map (fun error =>
      text "  - [" ++ error.code ++ text "] " ++ error.path ++ text " : " ++ error.message)

/-- The text of a JSON report. -/
def reportText (options : Options) (review : Review) : Text :=
  review.report.toJson.write options.indent

/-- What is shown of an accepted input. -/
def shownLines (options : Options) (review : Review) : List Text :=
  if options.json then [reportText options review] else review.report.lines

/-- The content of a report file: the text, ending its last line. -/
def fileContent (report : Text) : Bytes :=
  Utf8.encode (if report.getLast? == some 0x0A then report else report ++ text "\n")

/-- What remains to be done once the input was read. -/
inductive Plan where
  /-- The input is refused with these lines. -/
  | refuse (lines : List Text)
  /-- These lines are shown, and that is all. -/
  | present (lines : List Text)
  /-- These lines are shown, and a file with these names is written. -/
  | deliver (lines : List Text) (target : Path) (names : List Text) (content : Bytes)

/-- What is to be done about a review, in a working directory. -/
def plan (directory : Path) (options : Options) (review : Review) : Plan :=
  if review.ok then
    let lines := shownLines options review
    match options.target? with
    | none => .present lines
    | some out =>
        .deliver lines (FileSystem.Path.resolve directory out)
          (FileSystem.Path.written directory out) (fileContent (reportText options review))
  else .refuse (rejection review.errors)

/-- The end of a session whose input is refused. -/
def refused (lines : List Text) : Transcript :=
  ⟨1, [], lines⟩

/-- The end of a session that has nothing to write. -/
def presented (lines : List Text) : Transcript :=
  ⟨0, lines, []⟩

/-- The end of a session that tried to write its report. -/
def delivered (input target : Path) (names lines : List Text)
    : Except Fault Unit → Transcript
  | .ok () => ⟨0, lines, [text "Report written to: " ++ target.text]⟩
  | .error fault => ⟨1, lines, [faultLine input names fault]⟩

/-- Carries out a plan in a file system. -/
def Plan.run (files : FileSystem) (input : Path) : Plan → Transcript × FileSystem
  | .refuse lines => (refused lines, files)
  | .present lines => (presented lines, files)
  | .deliver lines target names content =>
      let (files, result) := files.store target content
      (delivered input target names lines result, files)

/-- Goes through a session in a file system, line by line. -/
def perform (files : FileSystem) (directory : Path) (clock : Clock) (file : Text)
    (options : Options)
    : Transcript × FileSystem :=
  let input := FileSystem.Path.resolve directory file
  match inputValue input (FileSystem.Path.written directory file) (files.read input) with
  | .error line => (refused [line], files)
  | .ok value => (plan directory options (quietReview clock (some value))).run files input

/-- Runs a session in a file system: how it ends, and the file system after it. -/
def run (files : FileSystem) (directory : Path) (clock : Clock) (file : Text)
    (options : Options)
    : Outcome × FileSystem :=
  let ended := perform files directory clock file options
  (ended.1.outcome, ended.2)

end NamingAdvice.Session
