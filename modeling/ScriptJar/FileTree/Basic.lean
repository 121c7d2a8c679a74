import ScriptJar.FileTree.Error
import ScriptJar.Path
import ScriptJar.Text.Utf8

/-! # File trees

The files a build reads and writes, as a value.  A tree maps places to nodes; a
place is the list of names that lead to it from the root.  A path is resolved from
the working directory (or the root) one segment at a time, and every segment but
the first must stand in a directory that exists.

* `FileTree.resolve` — the place a path names;
* `isFile`, `isDirectory`, `contains` — what is there;
* `readText`, `list` — the text of a file, the names in a directory.
-/

namespace ScriptJar

inductive Content where
  | text (s : String)
  /-- Bytes that are not UTF-8. -/
  | bytes (b : List UInt8)
  /-- A class archive, by the names of its members. -/
  | archive (members : List String)
  deriving DecidableEq, Repr

def Content.ofBytes (b : List UInt8) : Content :=
  match Text.Utf8.decode? b with
  | some s => .text (String.ofList s)
  | none => .bytes b

inductive Node where
  | directory
  | file (content : Content)
  deriving DecidableEq, Repr

/-- The names that lead from the root to a place. -/
abbrev Place := List String

/-- A file tree.  The root is always there and is a directory. -/
structure FileTree where
  /-- The place relative paths start from. -/
  workingDirectory : Place := []
  nodes : List (Place × Node) := []
  deriving DecidableEq, Repr

namespace FileTree

/-! ## Places -/

def get? (t : FileTree) (place : Place) : Option Node :=
  match place with
  | [] => some .directory
  | _ => t.nodes.lookup place

/-- The longest name a directory takes, in bytes. -/
def maxName : Nat := 255

/-- The place that segments lead to.  A void segment stays where it is, `..` goes
    up, and the root is its own parent. -/
def walk (t : FileTree) : Place → List (List Char) → Except FileError Place
  | here, [] => .ok here
  | here, segment :: rest =>
    if t.get? here ≠ some .directory then .error .notADirectory
    else if Path.isVoid segment then walk t here rest
    else if segment = ['.', '.'] then walk t here.dropLast rest
    else
      let name := String.ofList segment
      if maxName < name.utf8ByteSize then .error .nameTooLong
      else if (t.get? (here ++ [name])).isNone then .error .notFound
      else walk t (here ++ [name]) rest

def origin (t : FileTree) (p : Path) : Place :=
  if p.isAbsolute then [] else t.workingDirectory

/-- The longest path, in bytes. -/
def maxPath : Nat := 4095

/-- What is refused about a path as a text. -/
def pathError? (p : Path) : Option FileError :=
  if '\x00' ∈ p.text.toList then some .nulInPath
  else if p.text.isEmpty then some .notFound
  else if maxPath < p.text.utf8ByteSize then some .nameTooLong
  else none

def resolve (t : FileTree) (p : Path) : Except FileError Place :=
  match pathError? p with
  | some e => .error e
  | none => t.walk (t.origin p) (Text.splitOn '/' p.text.toList)

def node (t : FileTree) (p : Path) : Except FileError Node :=
  match t.resolve p with
  | .error e => .error e
  | .ok place =>
    match t.get? place with
    | some n => .ok n
    | none => .error .notFound

/-! ## Questions -/

def contains (t : FileTree) (p : Path) : Bool :=
  match t.node p with
  | .ok _ => true
  | .error _ => false

def isFile (t : FileTree) (p : Path) : Bool :=
  match t.node p with
  | .ok (.file _) => true
  | _ => false

def isDirectory (t : FileTree) (p : Path) : Bool :=
  match t.node p with
  | .ok .directory => true
  | _ => false

def readText (t : FileTree) (p : Path) : Except FileError String :=
  match t.node p with
  | .error e => .error e
  | .ok .directory => .error .isADirectory
  | .ok (.file (.text s)) => .ok s
  | .ok (.file _) => .error .notText

def childName? (dir : Place) (place : Place) : Option String :=
  if place.dropLast = dir then place.getLast? else none

/-- The names in a directory, in no particular order. -/
def list (t : FileTree) (p : Path) : Except FileError (List String) :=
  match t.resolve p with
  | .error e => .error e
  | .ok dir =>
    if t.get? dir = some .directory then .ok (t.nodes.filterMap fun n => childName? dir n.1)
    else .error .notADirectory

def pathOf (place : Place) : Path :=
  ⟨"/" ++ "/".intercalate place⟩

/-- The path without `.`, `..` and repeated slashes, from the root; a path that
    names nothing stays as it is. -/
def canonical (t : FileTree) (p : Path) : Path :=
  match t.resolve p with
  | .ok place => pathOf place
  | .error _ => p

end FileTree

end ScriptJar
