import Linewise.Text.Segments

/-! File systems, and one of them: a tree of files below a working directory, which is its root, so
that a leading slash and a step above it stay inside. There a path is walked component by component,
and the first component that cannot be passed decides the error. -/
namespace Linewise

/-- Why a file cannot be read or written. -/
inductive FileError where
  /-- A component of the path does not exist. -/
  | notFound
  /-- A component that has to be a directory is a file. -/
  | notDirectory
  /-- The path names a directory. -/
  | isDirectory
  /-- A component or the whole path is too long. -/
  | nameTooLong
  /-- The path holds the character NUL. -/
  | nulInPath
  /-- The contents are not UTF-8. -/
  | notText
  /-- Another answer of the system. -/
  | other (text : String)
deriving DecidableEq

/-- The wording of a file error. -/
def FileError.message : FileError → String
  | .notFound => "No such file or directory (os error 2)"
  | .notDirectory => "Not a directory (os error 20)"
  | .isDirectory => "Is a directory (os error 21)"
  | .nameTooLong => "File name too long (os error 36)"
  | .nulInPath => "file name contained an unexpected NUL byte"
  | .notText => "stream did not contain valid UTF-8"
  | .other text => text

/-- A file system whose files are what `φ` remembers. A write that fails may have changed them. -/
class FileSystem (φ : Type) where
  /-- The contents of the file at a path. -/
  read : φ → String → Except FileError ByteArray
  /-- Writes a file at a path, over one that is there. -/
  write : φ → String → ByteArray → φ × Except FileError Unit

/-- The text of contents, which have to be UTF-8. -/
def FileSystem.decode (contents : ByteArray) : Except FileError String :=
  match String.fromUTF8? contents with
  | some text => .ok text
  | none => .error .notText

/-- `read_to_string`: the text of the file at a path. -/
def FileSystem.readText {φ : Type} [FileSystem φ] (files : φ) (path : String) :
    Except FileError String :=
  match FileSystem.read files path with
  | .error e => .error e
  | .ok contents => FileSystem.decode contents

/-- What stands at a place of the tree. -/
inductive Entry where
  | file (contents : ByteArray)
  | folder

/-- A tree of files. Each place is the list of names that leads to it; the root is a folder. -/
structure Files where
  entries : List (List String × Entry) := []
deriving Inhabited

namespace Files

/-- What stands at a place. -/
def entry? (t : Files) (place : List String) : Option Entry :=
  if place.isEmpty then some .folder else t.entries.lookup place

/-- Puts an entry at a place. -/
def put (t : Files) (place : List String) (e : Entry) : Files :=
  ⟨(place, e) :: t.entries.filter fun old => old.1 != place⟩

/-- The largest size of a component, in bytes. -/
def maxName : Nat := 255

/-- The largest size of a path, in bytes. -/
def maxPath : Nat := 4095

/-- A path: its components, and whether a slash follows the last one. -/
structure Path where
  components : List String
  slash : Bool
deriving DecidableEq

/-- Reads a path. Repeated slashes count once. -/
def Path.ofText (path : String) : Path where
  components :=
    ((Text.segments '/' path.toList).map (·.filter (· != '/'))).filter (!·.isEmpty)
      |>.map String.ofList
  slash := path.toList.getLast? == some '/'

/-- Checks a path before it is walked. -/
def checked (path : String) : Except FileError Path :=
  if path.toList.contains '\x00' then .error .nulInPath
  else if path = "" then .error .notFound
  else if maxPath < path.utf8ByteSize then .error .nameTooLong
  else .ok (Path.ofText path)

/-- Goes from one folder into another. -/
def enter (t : Files) (place : List String) (name : String) : Except FileError (List String) :=
  if name = "." then .ok place
  else if name = ".." then .ok place.dropLast
  else if maxName < name.utf8ByteSize then .error .nameTooLong
  else
    match t.entry? (place ++ [name]) with
    | none => .error .notFound
    | some (.file _) => .error .notDirectory
    | some .folder => .ok (place ++ [name])

/-- Goes through several folders. -/
def walk (t : Files) (place : List String) : List String → Except FileError (List String)
  | [] => .ok place
  | name :: more =>
    match t.enter place name with
    | .ok next => t.walk next more
    | .error e => .error e

/-- The place that a name in a folder denotes, if it is an ordinary one. -/
def child? (place : List String) (name : String) : Option (List String) :=
  if name = "." ∨ name = ".." then none else some (place ++ [name])

/-- The contents of the file at a path. -/
def read (t : Files) (path : String) : Except FileError ByteArray :=
  match checked path with
  | .error e => .error e
  | .ok p =>
    match t.walk [] p.components.dropLast, p.components.getLast? with
    | .error e, _ => .error e
    | .ok _, none => .error .isDirectory
    | .ok place, some name =>
      match child? place name with
      | none => .error .isDirectory
      | some child =>
        if maxName < name.utf8ByteSize then .error .nameTooLong
        else
          match t.entry? child with
          | none => .error .notFound
          | some .folder => .error .isDirectory
          | some (.file contents) => if p.slash then .error .notDirectory else .ok contents

/-- The place of a file that is written at a path. A path that ends with a slash names a directory,
whether there is one or not. -/
def target (t : Files) (path : String) : Except FileError (List String) :=
  match checked path with
  | .error e => .error e
  | .ok p =>
    match t.walk [] p.components.dropLast, p.components.getLast? with
    | .error e, _ => .error e
    | .ok _, none => .error .isDirectory
    | .ok place, some name =>
      match child? place name with
      | none => .error .isDirectory
      | some child =>
        if p.slash then .error .isDirectory
        else if maxName < name.utf8ByteSize then .error .nameTooLong
        else
          match t.entry? child with
          | some .folder => .error .isDirectory
          | _ => .ok child

/-- Writes a file at a path, over one that is there. -/
def write (t : Files) (path : String) (contents : ByteArray) : Except FileError Files :=
  match t.target path with
  | .error e => .error e
  | .ok place => .ok (t.put place (.file contents))

/-- A tree of files is a file system in which a write that fails changes nothing. -/
instance : FileSystem Files where
  read := read
  write t path contents :=
    match t.write path contents with
    | .ok after => (after, .ok ())
    | .error e => (t, .error e)

/-- The text of the file at a path. -/
def readText (t : Files) (path : String) : Except FileError String :=
  FileSystem.readText t path

/-- Walks from a folder and makes the folders that are missing on the way. -/
def makeFolders (t : Files) (place : List String) : List String → Except FileError Files
  | [] => .ok t
  | name :: more =>
    match t.enter place name with
    | .ok next => t.makeFolders next more
    | .error .notFound =>
      (t.put (place ++ [name]) .folder).makeFolders (place ++ [name]) more
    | .error e => .error e

/-- The tree with a folder at a path. -/
def withFolder (t : Files) (path : String) : Except FileError Files :=
  match checked path with
  | .error e => .error e
  | .ok p => t.makeFolders [] p.components

/-- The tree with a file at a path, in folders that are made where needed. -/
def withFile (t : Files) (path : String) (contents : ByteArray) : Except FileError Files :=
  match checked path with
  | .error e => .error e
  | .ok p =>
    match t.makeFolders [] p.components.dropLast with
    | .error e => .error e
    | .ok grown => grown.write path contents

end Files

end Linewise
