import ScriptJar.FileTree.Basic

/-! # Changing a file tree

Making directories, writing files and removing whole directories.  An operation
that may stop halfway answers with the tree it leaves, also when it fails.
-/

namespace ScriptJar.FileTree

/-! ## Nodes -/

def set (t : FileTree) (place : Place) (n : Node) : FileTree :=
  if t.nodes.any (·.1 == place) then
    { t with nodes := t.nodes.map fun e => if e.1 = place then (place, n) else e }
  else { t with nodes := t.nodes ++ [(place, n)] }

/-- Removes a place and everything below it. -/
def erase (t : FileTree) (place : Place) : FileTree :=
  { t with nodes := t.nodes.filter fun e => !place.isPrefixOf e.1 }

/-! ## A name in a directory -/

/-- Where something is to be made: a directory that exists and the last segment of
    the path. -/
structure Target where
  directory : Place
  segment : List Char
  /-- Whether slashes follow the last segment. -/
  slash : Bool
  deriving DecidableEq, Repr

def target (t : FileTree) (p : Path) : Except FileError Target :=
  match pathError? p with
  | some e => .error e
  | none =>
    let segments := Text.splitOn '/' p.text.toList
    let named := (segments.reverse.dropWhile List.isEmpty).reverse
    match t.walk (t.origin p) named.dropLast with
    | .error e => .error e
    | .ok dir =>
      if t.get? dir ≠ some .directory then .error .notADirectory
      else .ok ⟨dir, named.getLast?.getD [], named.length < segments.length⟩

/-- Whether the last segment leads to a directory that is there already. -/
def Target.isFixed (g : Target) : Bool :=
  Path.isVoid g.segment || g.segment == ['.', '.']

def Target.name (g : Target) : String :=
  String.ofList g.segment

def Target.place (g : Target) : Place :=
  g.directory ++ [g.name]

/-! ## Directories -/

/-- Makes a directory in one that exists. -/
def makeDirectory (t : FileTree) (p : Path) : Except FileError FileTree :=
  match t.target p with
  | .error e => .error e
  | .ok g =>
    if g.isFixed then .error .alreadyExists
    else if maxName < g.name.utf8ByteSize then .error .nameTooLong
    else if (t.get? g.place).isSome then .error .alreadyExists
    else .ok (t.set g.place .directory)

/-- A path and its parents, up to the root or the working directory; `depth` bounds
    their number. -/
def ancestorsWithin : Nat → Path → List Path
  | 0, _ => []
  | depth + 1, p =>
    match p.parent? with
    | none => []
    | some q => p :: ancestorsWithin depth q

/-- A path and its parents, up to the root or the working directory. -/
def ancestors (p : Path) : List Path :=
  ancestorsWithin p.components.length p

/-- Goes up until a directory is there or can be made, and collects the paths below
    it that are missing, the topmost first. -/
def climb (t : FileTree) : List Path → List Path → Except FileError (List Path) × FileTree
  | missing, [] => (.ok missing, t)
  | missing, p :: rest =>
    match t.makeDirectory p with
    | .ok t => (.ok missing, t)
    | .error .notFound => climb t (p :: missing) rest
    | .error e =>
      if e = .alreadyExists ∧ t.isDirectory p then (.ok missing, t) else (.error e, t)

/-- Makes directories one after another, passing over those that are there. -/
def makeEach (t : FileTree) : List Path → Except FileError Unit × FileTree
  | [] => (.ok (), t)
  | p :: rest =>
    match t.makeDirectory p with
    | .ok t => makeEach t rest
    | .error e =>
      if e = .alreadyExists ∧ t.isDirectory p then makeEach t rest else (.error e, t)

/-- Makes a directory and those above it that are missing. -/
def makeDirectories (t : FileTree) (p : Path) : Except FileError Unit × FileTree :=
  match t.climb [] (ancestors p) with
  | (.error e, t) => (.error e, t)
  | (.ok missing, t) => t.makeEach missing

def removeDirectory (t : FileTree) (p : Path) : Except FileError FileTree :=
  match t.resolve p with
  | .error e => .error e
  | .ok place =>
    if t.get? place = some .directory then .ok (t.erase place) else .error .notADirectory

/-! ## Files -/

/-- Writes a file into a directory that exists, or replaces it. -/
def write (t : FileTree) (p : Path) (content : Content) : Except FileError FileTree :=
  match t.target p with
  | .error e => .error e
  | .ok g =>
    if g.isFixed || g.slash then .error .isADirectory
    else if maxName < g.name.utf8ByteSize then .error .nameTooLong
    else if t.get? g.place = some .directory then .error .isADirectory
    else .ok (t.set g.place (.file content))

def writeText (t : FileTree) (p : Path) (s : String) : Except FileError FileTree :=
  t.write p (.text s)

end ScriptJar.FileTree
