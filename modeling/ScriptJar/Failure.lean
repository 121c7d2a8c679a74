import ScriptJar.FileTree.Error
import ScriptJar.Path

/-! # Failures and warnings

What can stop the program, and what it only remarks on.  Both are given by their
causes; `Failure.message` and `Warning.message` hold the wording.
-/

namespace ScriptJar

/-! ## Failures -/

inductive Activity where
  | parsing (identifier : String)
  | reading (path : Path)
  | writing (path : Path)
  | opening (path : Path)
  | listing (path : Path)
  | creating (path : Path)
  | creatingLibraries (path : Path)
  | creatingStaging (path : Path)
  | creatingPackage (path : Path)
  | removingStaging (path : Path)
  | cleaningUp (path : Path)
  | executing (tool : Path)
  deriving DecidableEq, Repr

def Activity.message : Activity → String
  | .parsing identifier => s!"while parsing {identifier}"
  | .reading p => s!"read {p.text}"
  | .writing p => s!"write {p.text}"
  | .opening p => s!"open {p.text}"
  | .listing p => s!"read_dir {p.text}"
  | .creating p => s!"create {p.text}"
  | .creatingLibraries p => s!"cannot create library directory {p.text}"
  | .creatingStaging p => s!"create staging directory {p.text}"
  | .creatingPackage p => s!"create package directory {p.text}"
  | .removingStaging p => s!"remove staging directory {p.text}"
  | .cleaningUp p => s!"cleanup after building {p.text}"
  | .executing p => s!"failed to execute {p.text}"

inductive Failure where
  | file (error : FileError)
  /-- An outside tool failed, in its own words. -/
  | tool (message : String)
  /-- There is no such script; the help is what may have been meant. -/
  | scriptNotFound (path : Path) (help : Option String)
  /-- Scripts include one another more deeply than there are scripts. -/
  | nestedTooDeeply (path : Path)
  | notAnArchive
  | noEntryModule
  | malformedSettings (path : Path)
  | noSettingsDirectory
  | toolchainUnset
  | toolchainNotADirectory (path : Path)
  | librariesNotADirectory (path : Path)
  | noScript
  | notAScript (path : Path)
  /-- The clock cannot tell a deadline.  This is not handed on: it ends the program on
      the spot. -/
  | clockOverflow
  | during (activity : Activity) (cause : Failure)
  deriving DecidableEq, Repr

/-- The wording of a failure, the outermost activity first. -/
def Failure.message : Failure → String
  | .file e => e.message
  | .tool m => m
  | .scriptNotFound p none => s!"file not found: {p.text}"
  | .scriptNotFound p (some help) => s!"file not found: {p.text}\nhelp: {help}"
  | .nestedTooDeeply p => s!"nested too deeply: {p.text}"
  | .notAnArchive => "invalid zip archive"
  | .noEntryModule => "module graph has no entry module"
  | .malformedSettings p => s!"parse settings {p.text}"
  | .noSettingsDirectory => "cannot determine OS config directory"
  | .toolchainUnset => "toolchain_root is not set and JAVA_HOME is empty"
  | .toolchainNotADirectory p => s!"toolchain_root {p.text} is not a directory"
  | .librariesNotADirectory p => s!"library_dir {p.text} is not a directory"
  | .noScript => "missing input file"
  | .notAScript p => s!"expected .jsc source file: {p.text}"
  | .clockOverflow => "overflow when adding duration to instant"
  | .during activity cause => activity.message ++ ": " ++ cause.message

def FileError.during (e : FileError) (activity : Activity) : Failure :=
  .during activity (.file e)

/-! ## Warnings -/

inductive Warning where
  | skippedLibrary (path : Path) (cause : Failure)
  | noMatches (requested : String) (hint help : Option String)
  | donorCycle (host donor : String)
  /-- A compilation that failed without pointing at a source line. -/
  | compilerFailed (late : Bool)
  /-- A line of the compiler's, after `compilerFailed`. -/
  | compilerLine (line : String)
  | archiverErrors (count : Nat) (archive : Path)
  /-- A source line that a diagnostic points at and that cannot be read. -/
  | unreadableSource (path : Path) (cause : Failure)
  /-- A tool that did not end in time, given in words. -/
  | timedOut (tool : Path) (after : String)
  deriving DecidableEq, Repr

def Warning.message : Warning → String
  | .skippedLibrary p cause => s!"skipping library {p.text}: " ++ cause.message
  | .noMatches requested hint help =>
    let scope := match hint with
      | none => ""
      | some h => s!" in libraries matching \"{h}\""
    let question := match help with
      | none => ""
      | some q => s!"; {q}"
    s!"no matches found for {requested}{scope}{question}"
  | .donorCycle host donor => s!"{host}: ext cycle through {donor}; skipping"
  | .compilerFailed late =>
    "compiler failed without a located error" ++ if late then " (timed out)" else ""
  | .compilerLine line => line
  | .archiverErrors count archive =>
    s!"archiver reported {Nat.repr count} error line(s) for {archive.text}"
  | .unreadableSource p cause => s!"cannot read {p.text}: " ++ cause.message
  | .timedOut tool after => s!"{tool.text} timed out after {after}; killing it"

end ScriptJar
