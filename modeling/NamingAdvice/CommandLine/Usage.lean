import NamingAdvice.CommandLine.Suggestion

/-! What the command line says about itself, and what it says to a user who got it wrong. -/

namespace NamingAdvice.CommandLine

/-- The version, as it is printed. -/
def versionText : Text := text "0.1.0"

/-- The help, line by line. -/
def helpLines : List Text := [
  text "Usage: namecheck [options] <file>",
  text "",
  text "Report naming-convention advisories for a declaration tree",
  text "",
  text "Arguments:",
  text "  file              JSON file holding an array of declaration nodes",
  text "",
  text "Options:",
  text "  -V, --version     output the version number",
  text "  --json            print a JSON report instead of text lines (default: false)",
  text "  --pretty [n]      indent the JSON report with n spaces (default: 2)",
  text "  -o, --out <file>  also write the JSON report to this file",
  text "  -h, --help        display help for command"
]

/-- What is wrong with the arguments. -/
inductive UsageError where
  | unknownOption (given : Text)
  | missingFile
  | missingOut
deriving DecidableEq, Repr

/-- Only long options are guessed at. -/
def UsageError.message : UsageError → Text
  | .unknownOption given =>
      text "error: unknown option '" ++ given ++ text "'"
        ++ if given.take 2 == text "--" then suggestion (given.drop 2) else []
  | .missingFile => text "error: missing required argument 'file'"
  | .missingOut => text "error: option '-o, --out <file>' argument missing"

/-- What is answered to arguments that start no session. -/
inductive Notice where
  | version
  | help
  | complaint (error : UsageError)
deriving DecidableEq, Repr

end NamingAdvice.CommandLine
