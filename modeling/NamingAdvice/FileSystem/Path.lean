import NamingAdvice.Text.Utf8

/-! Absolute paths. A path is the list of the names on the way from the root; names are
octets, as the system keeps them. Dots, double dots and needless slashes in a given text are
resolved before anything is looked up.
-/

namespace NamingAdvice.FileSystem

/-- The name of an entry in a directory. -/
abbrev Name := Bytes

/-- The names from the root down to an entry. -/
abbrev Path := List Name

namespace Path

/-- The octets of a path; the root is a lone slash. -/
def bytes : Path → Bytes
  | [] => [0x2F]
  | path => path.flatMap (0x2F :: ·)

/-- A path in words. -/
def text (path : Path) : Text :=
  Utf8.decode (bytes path)

section

variable {α : Type} (name : Text → α)

/-- Follows one part of a given text from the names so far. -/
def enter (names : List α) (part : Text) : List α :=
  if part == [] || part == NamingAdvice.text "." then names
  else if part == NamingAdvice.text ".." then names.dropLast
  else names ++ [name part]

/-- Follows a given text from the names of a working directory. -/
def follow (directory : List α) (given : Text) : List α :=
  let start := if given.head? == some 0x2F then [] else directory
  (given.parts 0x2F).foldl (enter name) start

end

/-- The path that a text means in a working directory. -/
def resolve (directory : Path) (given : Text) : Path :=
  follow Utf8.encode directory given

/-- The names on that path, as they are written. Names that differ in lone surrogates are the
same in octets.
-/
def written (directory : Path) (given : Text) : List Text :=
  follow id (directory.map Utf8.decode) given

/-- Names in one text, the root being a lone slash. -/
def spell : List Text → Text
  | [] => NamingAdvice.text "/"
  | names => names.flatMap (0x2F :: ·)

end Path

end NamingAdvice.FileSystem
