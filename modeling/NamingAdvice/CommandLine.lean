import NamingAdvice.CommandLine.Arguments
import NamingAdvice.Session

/-! The whole command line: its arguments decide between a session and a notice. -/

namespace NamingAdvice.CommandLine

open Session (Outcome printed)

/-- How a command ends that starts no session. -/
def Notice.outcome : Notice → Outcome
  | .version => ⟨0, printed [versionText], []⟩
  | .help => ⟨0, printed helpLines, []⟩
  | .complaint error => ⟨1, [], printed [error.message]⟩

/-- Runs a command in a file system: how it ends, and the file system after it. -/
def run (files : FileSystem) (directory : FileSystem.Path) (clock : Clock)
    (arguments : List Text)
    : Outcome × FileSystem :=
  match interpret arguments with
  | .check file options => Session.run files directory clock file options
  | .notice notice => (notice.outcome, files)

end NamingAdvice.CommandLine
