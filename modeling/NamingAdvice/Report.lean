import NamingAdvice.Json.Writer
import NamingAdvice.Review

/-! The report on a review: one line of text for each advisory and a summary, or a JSON value
that holds all of it. A report names the declarations and leaves out what they hold.
-/

namespace NamingAdvice

/-- An advisory as it is reported. -/
structure Report.Entry where
  severity : Severity
  code : Text
  path : Text
  name : Text
  message : Text
deriving DecidableEq, Repr

structure Report where
  ok : Bool
  errors : List InputError
  advisories : List Report.Entry
  elapsed : Int
deriving DecidableEq, Repr

def Advisory.entry (advisory : Advisory) : Report.Entry where
  severity := advisory.severity
  code := advisory.code.label
  path := advisory.path
  name := advisory.declaration.name
  message := advisory.message

def Review.report (review : Review) : Report where
  ok := review.ok
  errors := review.errors
  advisories := review.advisories.map Advisory.entry
  elapsed := review.elapsed

namespace Report

/-- The line for an advisory. -/
def Entry.line (entry : Entry) : Text :=
  entry.severity.label ++ text ": [" ++ entry.code ++ text "] " ++ entry.path ++ text " : "
    ++ entry.message

/-- A summary of so many advisories. -/
def summaryOf : Nat → Text
  | 0 => text "No naming advisories"
  | 1 => text "1 naming advisory"
  | count => Text.ofNat count ++ text " naming advisories"

def summary (report : Report) : Text :=
  summaryOf report.advisories.length

/-- All lines of a report in text. -/
def lines (report : Report) : List Text :=
  report.advisories.map Entry.line ++ [report.summary]

def Entry.toJson (entry : Entry) : Json :=
  .object [
    (text "severity", .string entry.severity.label),
    (text "code", .string entry.code),
    (text "path", .string entry.path),
    (text "name", .string entry.name),
    (text "message", .string entry.message)
  ]

end Report

def InputError.toJson (error : InputError) : Json :=
  .object (
    [(text "code", .string error.code),
      (text "path", .string error.path),
      (text "message", .string error.message)]
    ++ (error.hint.map (fun hint => (text "hint", Json.string hint))).toList)

def Report.toJson (report : Report) : Json :=
  .object [
    (text "ok", .bool report.ok),
    (text "errors", .array (report.errors.map InputError.toJson)),
    (text "advisories", .array (report.advisories.map Report.Entry.toJson)),
    (text "time_ms", .number (.ofInt report.elapsed))
  ]

end NamingAdvice
