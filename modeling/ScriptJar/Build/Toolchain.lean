import ScriptJar.Failure
import ScriptJar.FileTree.Basic

/-! # Toolchains

The compiler and the archiver that a build drives.  A toolchain may do anything:
it may change the files, remember what it was asked before and fail at any time.
So it is a pair of functions that also take and return the files and a state of
its own.
-/

namespace ScriptJar

structure CompileRequest where
  classpath : List Path
  /-- Where the classes go. -/
  output : Path
  sources : List Path
  deriving DecidableEq, Repr

structure CompileReport where
  /-- The lines of its error output. -/
  stderr : List String := []
  success : Bool := false
  timedOut : Bool := false
  deriving DecidableEq, Repr

structure ArchiveRequest where
  archive : Path
  manifest : Path
  classes : Path
  /-- Class files, below `classes`. -/
  entries : List Path
  deriving DecidableEq, Repr

structure ArchiveReport where
  /-- The lines of its error output. -/
  stderr : List String := []
  deriving DecidableEq, Repr

/-- What a tool leaves behind, with its answer or the reason why there is none. -/
structure Reply (σ α : Type) where
  result : Except Failure α
  warnings : List Warning := []
  files : FileTree
  tools : σ

structure Toolchain (σ : Type) where
  compile : CompileRequest → FileTree → σ → Reply σ CompileReport
  archive : ArchiveRequest → FileTree → σ → Reply σ ArchiveReport

/-! ## Arguments -/

/-- The class path: the working directory and the libraries. -/
def classpathArgument (libraries : List Path) : Option String :=
  if libraries.isEmpty then none
  else some (":".intercalate ("." :: libraries.map Path.text))

def CompileRequest.arguments (r : CompileRequest) : List String :=
  let classpath := match classpathArgument r.classpath with
    | none => []
    | some cp => ["-classpath", cp]
  "-nowarn" :: classpath ++ ["-d", r.output.text] ++ r.sources.map Path.text

def ArchiveRequest.arguments (r : ArchiveRequest) : List String :=
  ["cfm", r.archive.text, r.manifest.text]
    ++ r.entries.flatMap fun e => ["-C", r.classes.text, e.text]

end ScriptJar
