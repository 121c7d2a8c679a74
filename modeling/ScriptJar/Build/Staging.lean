import ScriptJar.Digest
import ScriptJar.Failure
import ScriptJar.FileTree.Update
import ScriptJar.Module

/-! # Staging directories

A build works in a directory of its own: generated sources below `src`, classes
below `bin`, and the manifest beside them.  Its name is made from the entry script
and the process, so that builds do not meet.
-/

namespace ScriptJar

structure Staging where
  root : Path
  deriving DecidableEq, Repr

namespace Staging

def sources (st : Staging) : Path := st.root / "src"

def classes (st : Staging) : Path := st.root / "bin"

def manifest (st : Staging) : Path := st.root / "temp.mf"

def sourceFile (st : Staging) (m : Module) : Path := st.sources / m.sourcePath

/-- Twelve hexadecimal digits that stand for the entry script. -/
def keyOf (files : FileTree) (entry : Path) : String :=
  let path := (files.canonical entry).text
  String.ofList ((Digest.hex (Digest.sha256 path.toUTF8.toList)).take 12)

def ofEntry (files : FileTree) (base : Path) (process : Nat) (entry : Path) : Staging :=
  ⟨base / s!"jsc-{keyOf files entry}-{Nat.repr process}"⟩

def create (st : Staging) (files : FileTree) : Except Failure Unit × FileTree :=
  match files.makeDirectories st.sources with
  | (.error e, files) => (.error (e.during (.creatingStaging st.sources)), files)
  | (.ok (), files) =>
    match files.makeDirectories st.classes with
    | (.error e, files) => (.error (e.during (.creatingStaging st.classes)), files)
    | (.ok (), files) => (.ok (), files)

def makePackage (file : Path) (files : FileTree) : Except Failure Unit × FileTree :=
  match file.parent? with
  | none => (.ok (), files)
  | some dir =>
    match files.makeDirectories dir with
    | (.error e, files) => (.error (e.during (.creatingPackage dir)), files)
    | (.ok (), files) => (.ok (), files)

/-- Writes the Java file of a module, in the directory of its package. -/
def writeSource (st : Staging) (m : Module) (text : String) (files : FileTree) :
    Except Failure Path × FileTree :=
  let file := st.sourceFile m
  match makePackage file files with
  | (.error e, files) => (.error e, files)
  | (.ok (), files) =>
    match files.writeText file text with
    | .error e => (.error (e.during (.writing file)), files)
    | .ok files => (.ok file, files)

def remove (st : Staging) (files : FileTree) : Except Failure FileTree :=
  match files.removeDirectory st.root with
  | .error e => .error (e.during (.removingStaging st.root))
  | .ok files => .ok files

end Staging

end ScriptJar
