import ScriptJar.Failure
import ScriptJar.FileTree.Update
import ScriptJar.Settings.File

/-! # Settings in their environment

Where the settings file is, and what the settings amount to on a machine: the
toolchain's directory and the library directory.
-/

namespace ScriptJar

/-- The variables of the environment, and the user's home directory as the system
    knows it. -/
structure Environment where
  values : List (String × String) := []
  accountHome : Option String := none
  deriving DecidableEq, Repr

namespace Environment

/-- The value of a variable; an unset one is empty. -/
def get (env : Environment) (name : String) : String :=
  (env.values.lookup name).getD ""

/-- The user's home directory: `HOME`, or what the system knows. -/
def home? (env : Environment) : Option Path :=
  if env.get "HOME" ≠ "" then some ⟨env.get "HOME"⟩ else env.accountHome.map Path.mk

def configDirectory? (env : Environment) : Option Path :=
  env.home?.map fun home =>
    let config : Path := ⟨env.get "XDG_CONFIG_HOME"⟩
    if config.isAbsolute then config else home / ".config"

end Environment

namespace Settings

/-! ## The file -/

/-- The path of the settings file: the given one, the one the environment names, or
    the usual one. -/
def pathIn (env : Environment) (given : Option Path) : Except Failure Path :=
  match given with
  | some p => .ok p
  | none =>
    if env.get "JSC_SETTINGS" ≠ "" then .ok ⟨env.get "JSC_SETTINGS"⟩
    else
      match env.configDirectory? with
      | some dir => .ok (dir / "jsc" / "settings.json")
      | none => .error .noSettingsDirectory

def makeDirectoryOf (p : Path) (files : FileTree) : Except Failure Unit × FileTree :=
  match p.parent? with
  | none => (.ok (), files)
  | some dir =>
    if dir.text = "" then (.ok (), files)
    else
      match files.makeDirectories dir with
      | (.error e, files) => (.error (e.during (.creating dir)), files)
      | (.ok (), files) => (.ok (), files)

def save (s : Settings) (p : Path) (files : FileTree) : Except Failure Unit × FileTree :=
  match makeDirectoryOf p files with
  | (.error e, files) => (.error e, files)
  | (.ok (), files) =>
    match files.writeText p s.fileText with
    | .error e => (.error (e.during (.writing p)), files)
    | .ok files => (.ok (), files)

def load (p : Path) (files : FileTree) : Except Failure Settings :=
  match files.readText p with
  | .error e => .error (e.during (.reading p))
  | .ok text =>
    match parse? text with
    | none => .error (.malformedSettings p)
    | some s => .ok s

/-- Reads the settings file; if there is none, writes one with the defaults. -/
def loadOrInit (p : Path) (files : FileTree) : Except Failure Settings × FileTree :=
  if files.contains p then (load p files, files)
  else
    let defaults : Settings := {}
    match defaults.save p files with
    | (.error e, files) => (.error e, files)
    | (.ok (), files) => (.ok defaults, files)

/-! ## Directories -/

/-- The library directory, with the home directory put in. -/
def expandedLibraryDirectory (s : Settings) (env : Environment) : Path :=
  match env.home? with
  | some home => ⟨Text.replaceAllIn "$home" home.text s.libraryDirectory⟩
  | none => ⟨s.libraryDirectory⟩

/-- The library directory, which is made if nothing is there. -/
def openLibraryDirectory (s : Settings) (env : Environment) (files : FileTree) :
    Except Failure Path × FileTree :=
  let dir := s.expandedLibraryDirectory env
  let (made, files) := if files.contains dir then (.ok (), files) else files.makeDirectories dir
  match made with
  | .error e => (.error (e.during (.creatingLibraries dir)), files)
  | .ok () =>
    (if files.isDirectory dir then .ok dir else .error (.librariesNotADirectory dir), files)

/-- The toolchain's directory, which must be there: the one that is set, or that of
    the environment. -/
def findToolchain (s : Settings) (env : Environment) (files : FileTree) :
    Except Failure Path :=
  let root : Path := if s.toolchainRoot.text = "" then ⟨env.get "JAVA_HOME"⟩ else s.toolchainRoot
  if root.text = "" then .error .toolchainUnset
  else if files.isDirectory root then .ok root
  else .error (.toolchainNotADirectory root)

end Settings

def runtimeLibrary (files : FileTree) (root : Path) : Option Path :=
  [root / "jre" / "lib" / "rt.jar", root / "lib" / "rt.jar"].find? files.isFile

end ScriptJar
