import ScriptJar.Directive
import ScriptJar.FileTree.Basic
import ScriptJar.Graph.Basic
import ScriptJar.Library.Resolve
import ScriptJar.Statement

/-! # Loading scripts

Reading an entry script with every file it reaches.  A companion becomes a module
of the graph, once for each identifier; a donor becomes part of the module that
names it, as often as it is named.  Paths in a script start from its directory.

* `Loader.absorb` — one directive;
* `Loader.parse` — the statements of one script;
* `Loader.loadScript` — one script;
* `Loader.loadFile` — one script and all it names;
* `Loader.loadEntry` — the entry script.

Reading a script needs reading those it names, so the first three take the reader of
named scripts as an argument.  No chain of scripts can be deeper than
`Loader.depth`: each step takes an identifier that was free, or starts to read one
that was not being read, and both must belong to a file of the tree.
-/

namespace ScriptJar

structure Loader where
  files : FileTree := {}
  libraries : List Library := []
  /-- Substitutions that every module starts with. -/
  defaults : Substitutions := {}
  deriving Repr

/-- The graph as far as it is read, and what happened so far. -/
structure Loading where
  graph : Graph := {}
  warnings : List Warning := []
  /-- The scripts that were opened, in order. -/
  scripts : List Path := []
  deriving Repr

namespace Loading

def warn (s : Loading) (ws : List Warning) : Loading :=
  { s with warnings := s.warnings ++ ws }

def note (s : Loading) (p : Path) : Loading :=
  { s with scripts := s.scripts ++ [p] }

def onGraph (s : Loading) (f : Graph → Graph) : Loading :=
  { s with graph := f s.graph }

end Loading

abbrev ScriptReader := Path → Loading → Except Failure Module × Loading

namespace Loader

/-! ## Files -/

/-- The scripts with similar names in the same directory, as a question. -/
def siblingHelp (files : FileTree) (p : Path) : Option String :=
  match p.fileName?, files.list p.directory with
  | some name, .ok names =>
    Suggestion.didYouMean name (names.filter fun n => (Path.splitName n).2 == some "jsc")
  | _, _ => none

def readScript (files : FileTree) (p : Path) : Except Failure String :=
  if files.isFile p then
    match files.readText p with
    | .ok text => .ok text
    | .error e => .error (e.during (.reading p))
  else .error (.scriptNotFound p (siblingHelp files p))

/-! ## Directives -/

def sameIdentifier (a b : String) : Bool :=
  Graph.key a == Graph.key b

def addReference (l : Loader) (m : Module) (name : String) (hint : Option String)
    (s : Loading) : Module × Loading :=
  let (reference, warnings) := Library.resolve l.libraries name hint
  ({ m with references := m.references ++ [reference] }, s.warn warnings)

/-- Reads a companion into the graph, unless it is the script itself or its
    identifier is taken. -/
def addCompanion (load : ScriptReader) (host : String) (p : Path) (s : Loading) :
    Except Failure Unit × Loading :=
  if sameIdentifier p.identifier host || s.graph.isClaimed p.identifier then (.ok (), s)
  else
    match load p (s.onGraph (·.claim p.identifier)) with
    | (.error e, s) => (.error e, s)
    | (.ok companion, s) => (.ok (), s.onGraph (·.insert companion))

/-- Reads a donor, unless it is the script itself or is being read already. -/
def readDonor (load : ScriptReader) (host : String) (p : Path) (s : Loading) :
    Except Failure (Option Module) × Loading :=
  if sameIdentifier p.identifier host then (.ok none, s)
  else if s.graph.isLoading p.identifier then
    (.ok none, s.warn [.donorCycle host p.identifier])
  else
    match load p s with
    | (.error e, s) => (.error e, s)
    | (.ok donor, s) => (.ok (some donor), s)

def absorb (l : Loader) (load : ScriptReader) (base : Path) (m : Module) (d : Directive)
    (s : Loading) : Except Failure Module × Loading :=
  match d with
  | .package name => (.ok { m with package := some name }, s)
  | .header header => (.ok { m with header }, s)
  | .classImport name =>
    let (m, s) := l.addReference m name none s
    (.ok m, s)
  | .libraryImport library name =>
    let (m, s) := l.addReference m name (some library) s
    (.ok m, s)
  | .staticImport name => (.ok { m with staticImports := m.staticImports ++ [name] }, s)
  | .substitution key value =>
    (.ok { m with substitutions := m.substitutions.insert key value }, s)
  | .companion file =>
    match addCompanion load m.identifier (base / file) s with
    | (.error e, s) => (.error e, s)
    | (.ok (), s) => (.ok m, s)
  | .donor file =>
    match readDonor load m.identifier (base / file) s with
    | (.error e, s) => (.error e, s)
    | (.ok donor, s) => (.ok { m with donors := m.donors ++ donor.toList }, s)
  | .classScope code => (.ok { m with classScope := m.classScope ++ [code] }, s)
  | .entryScope code => (.ok { m with entryScope := m.entryScope ++ [code] }, s)

/-! ## Scripts -/

/-- What statements say, `position` of them having been counted.  Blank statements do
    not count. -/
def directives : Nat → List String → List Directive
  | _, [] => []
  | position, statement :: rest =>
    let code := Text.trimmed statement
    if code = "" then directives position rest
    else Directive.classify code (position + 1) :: directives (position + 1) rest

def absorbAll (l : Loader) (load : ScriptReader) (base : Path) :
    Module → List Directive → Loading → Except Failure Module × Loading
  | m, [], s => (.ok m, s)
  | m, d :: rest, s =>
    match l.absorb load base m d s with
    | (.error e, s) => (.error e, s)
    | (.ok m, s) => absorbAll l load base m rest s

def parse (l : Loader) (load : ScriptReader) (identifier : String) (base : Path)
    (statements : List String) (s : Loading) : Except Failure Module × Loading :=
  let fresh := !s.graph.isLoading identifier
  let (result, s) := l.absorbAll load base { identifier, substitutions := l.defaults }
    (directives 0 statements) (s.onGraph (·.enter identifier))
  let s := if fresh then s.onGraph (·.leave identifier) else s
  match result with
  | .ok m => (.ok m, s)
  | .error e => (.error (.during (.parsing identifier) e), s)

def loadScript (l : Loader) (load : ScriptReader) : ScriptReader := fun p s =>
  match readScript l.files p with
  | .error e => (.error e, s)
  | .ok text => l.parse load p.identifier p.directory (Statement.split text) (s.note p)

/-- The module of a script file, with scripts nested up to a depth. -/
def loadWithin (l : Loader) : Nat → ScriptReader
  | 0 => fun p s => (.error (.nestedTooDeeply p), s)
  | depth + 1 => l.loadScript (l.loadWithin depth)

/-- A depth that no chain of scripts exceeds: every step takes one of the tree's
    identifiers for the first time or starts to read it, and the last may fail. -/
def depth (l : Loader) : Nat :=
  2 * l.files.nodes.length + 3

def loadFile (l : Loader) : ScriptReader :=
  l.loadWithin l.depth

def parseScript (l : Loader) (identifier : String) (base : Path) (statements : List String)
    (s : Loading) : Except Failure Module × Loading :=
  l.parse l.loadFile identifier base statements s

/-- Reads a script into a graph, as the one the program starts with. -/
def addEntry (load : ScriptReader) (p : Path) (s : Loading) : Except Failure Unit × Loading :=
  match load p (s.onGraph (·.claim p.identifier)) with
  | (.error e, s) => (.error e, s)
  | (.ok m, s) =>
    (.ok (), s.onGraph fun g => { g.insert m with entryIndex := some g.modules.length })

def loadEntry (l : Loader) : Path → Loading → Except Failure Unit × Loading :=
  addEntry l.loadFile

end Loader

end ScriptJar
