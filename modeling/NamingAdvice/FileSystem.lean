import NamingAdvice.FileSystem.Fault

/-! Plain files in directories. A path that is not refused for what it is, is walked name by
name from the root: what is passed through has to be a directory, a name has to be short
enough, and then it has to be there.
-/

namespace NamingAdvice

namespace FileSystem

/-- What a directory holds under a name. -/
inductive Entry where
  | file (content : Bytes)
  | directory (entries : List (Name × Entry))

/-- The entries of a directory. -/
abbrev Entries := List (Name × Entry)

/-- The most octets that a name can have. -/
def longestName : Nat := 255

/-- Puts an entry under a name: in its old place if the name is there, else at the end. -/
def Entries.set (name : Name) (entry : Entry) : Entries → Entries
  | [] => [(name, entry)]
  | (other, old) :: entries =>
      if other == name then (name, entry) :: entries
      else (other, old) :: Entries.set name entry entries

/-- Follows a path from an entry. -/
def Entry.find : Entry → Path → Except Cause Entry
  | entry, [] => .ok entry
  | .file _, _ :: _ => .error .notDirectory
  | .directory entries, name :: path =>
      if longestName < name.length then .error .nameTooLong
      else
        match entries.lookup name with
        | none => .error .noEntry
        | some entry => entry.find path

/-- Follows a path down to the directory of its last name and changes that directory. -/
def Entries.change (edit : Name → Entries → Except Cause Entries) (entries : Entries)
    (name : Name)
    : Path → Except Cause Entries
  | [] => if longestName < name.length then .error .nameTooLong else edit name entries
  | next :: path =>
      if longestName < name.length then .error .nameTooLong
      else
        match entries.lookup name with
        | none => .error .noEntry
        | some (.file _) => .error .notDirectory
        | some (.directory inner) =>
            (Entries.change edit inner next path).map
              (fun inner => Entries.set name (.directory inner) entries)

/-- Adds an empty directory under a name that is free. -/
def Entries.addDirectory (name : Name) (entries : Entries) : Except Cause Entries :=
  match entries.lookup name with
  | some _ => .error .alreadyExists
  | none => .ok (Entries.set name (.directory []) entries)

/-- Gives the file under a name its content. -/
def Entries.setFile (content : Bytes) (name : Name) (entries : Entries)
    : Except Cause Entries :=
  match entries.lookup name with
  | some (.directory _) => .error .isDirectory
  | _ => .ok (Entries.set name (.file content) entries)

end FileSystem

/-- A file system, as the entries of its root directory. -/
structure FileSystem where
  entries : FileSystem.Entries

namespace FileSystem

/-- The entry at a path. -/
def find (files : FileSystem) (path : Path) : Except Cause Entry :=
  match path.refusal? with
  | some cause => .error cause
  | none => (Entry.directory files.entries).find path

/-- The content of the file at a path. A directory can be opened, but not read. -/
def read (files : FileSystem) (path : Path) : Except Fault Bytes :=
  match files.find path with
  | .ok (.file content) => .ok content
  | .ok (.directory _) => .error ⟨.isDirectory, .read, path⟩
  | .error cause => .error ⟨cause, .open, path⟩

/-- Changes the directory that holds the last name of a path. No directory holds the root,
which is refused for a given cause.
-/
def change (files : FileSystem) (edit : Name → Entries → Except Cause Entries) (atRoot : Cause)
    (path : Path)
    : Except Cause FileSystem :=
  match path.refusal?, path with
  | some cause, _ => .error cause
  | none, [] => .error atRoot
  | none, name :: rest => (Entries.change edit files.entries name rest).map FileSystem.mk

/-- Makes one directory, whose parent has to be there. -/
def makeDirectory (files : FileSystem) (path : Path) : Except Cause FileSystem :=
  files.change Entries.addDirectory .alreadyExists path

/-- Makes the directories below a base that are not there yet, from the top. Those made
before a refusal stay.
-/
def makeBelow (files : FileSystem) (base : Path) : Path → FileSystem × Except Fault Unit
  | [] => (files, .ok ())
  | name :: path =>
      let here := base ++ [name]
      match files.makeDirectory here with
      | .ok files => files.makeBelow here path
      | .error .alreadyExists => files.makeBelow here path
      | .error cause => (files, .error ⟨cause, .makeDirectory, here⟩)

/-- Makes sure that there is a directory at a path. It is asked for as a whole first, and
from the top only if something on the way is missing.
-/
def makeDirectories (files : FileSystem) (path : Path) : FileSystem × Except Fault Unit :=
  match files.makeDirectory path with
  | .ok files => (files, .ok ())
  | .error .noEntry => files.makeBelow [] path
  | .error .alreadyExists =>
      match files.find path with
      | .ok (.directory _) => (files, .ok ())
      | _ => (files, .error ⟨.alreadyExists, .makeDirectory, path⟩)
  | .error cause => (files, .error ⟨cause, .makeDirectory, path⟩)

/-- Gives the file at a path its content. Its directory has to be there. -/
def writeFile (files : FileSystem) (path : Path) (content : Bytes) : Except Fault FileSystem :=
  (files.change (Entries.setFile content) .isDirectory path).mapError (⟨·, .open, path⟩)

/-- Gives the file at a path its content, and makes its directory first if need be. -/
def store (files : FileSystem) (path : Path) (content : Bytes) : FileSystem × Except Fault Unit :=
  match files.makeDirectories path.dropLast with
  | (files, .error fault) => (files, .error fault)
  | (files, .ok ()) =>
      match files.writeFile path content with
      | .ok files => (files, .ok ())
      | .error fault => (files, .error fault)

end FileSystem

end NamingAdvice
