import ScriptJar.Failure
import ScriptJar.FileTree.Basic

/-! # Libraries

A library is a class archive.  A build looks at the runtime library of the
toolchain first, and then at the archives of the library directory by name.  A
file that is no archive stays in the list without entries.
-/

namespace ScriptJar

structure Library where
  path : Path
  /-- Whether it is the base library of the toolchain. -/
  runtime : Bool := false
  /-- The names of its members, in the archive's order. -/
  entries : List String := []
  deriving DecidableEq, Repr

namespace Library

def readEntries (files : FileTree) (p : Path) : Except Failure (List String) :=
  match files.node p with
  | .error e => .error (e.during (.opening p))
  | .ok (.file (.archive members)) => .ok members
  | .ok _ => .error .notAnArchive

def load (files : FileTree) (runtime : Bool) (p : Path) : Library × List Warning :=
  match readEntries files p with
  | .ok entries => (⟨p, runtime, entries⟩, [])
  | .error e => (⟨p, runtime, []⟩, [.skippedLibrary p e])

/-- Opens the runtime library, if there is one, and then the archives in order. -/
def openAll (files : FileTree) (runtime : Option Path) (paths : List Path) :
    List Library × List Warning :=
  let loaded := runtime.toList.map (load files true) ++ paths.map (load files false)
  (loaded.map Prod.fst, loaded.flatMap Prod.snd)

def nameLe (a b : String) : Bool := decide (a ≤ b)

/-- Opens the runtime library, if there is one, and then the files of a directory
    in the order of their names. -/
def discover (files : FileTree) (runtime : Option Path) (directory : Path) :
    Except Failure (List Library × List Warning) :=
  match files.list directory with
  | .error e => .error (e.during (.listing directory))
  | .ok names =>
    let paths := (names.mergeSort nameLe).map fun name : String => directory / name
    .ok (openAll files runtime (paths.filter files.isFile))

/-- Whether a hint admits a library: the runtime library by its whole path, others
    by their file name. -/
def admits (hint : String) (l : Library) : Bool :=
  if l.runtime then Text.occursIn hint.toList l.path.text.toList
  else
    match l.path.fileName? with
    | none => false
    | some name => Text.occursIn hint.toList name.toList

end Library

end ScriptJar
