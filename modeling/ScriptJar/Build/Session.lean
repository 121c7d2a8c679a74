import ScriptJar.Build.Job
import ScriptJar.Graph.Load
import ScriptJar.Settings.Environment

/-! # Sessions

A session knows the settings, the toolchain's directory and the libraries, and
builds entry scripts with them.  `Session.buildFile` loads the script, builds it in
a staging directory and removes that directory again, whatever came of the build.
-/

namespace ScriptJar

structure Session where
  settings : Settings := {}
  toolchainRoot : Path
  libraries : List Library := []
  deriving DecidableEq, Repr

/-- Where builds are staged, and by which process. -/
structure Host where
  temporaryDirectory : Path
  process : Nat
  deriving DecidableEq, Repr

namespace Session

variable {σ : Type}

/-- Opens a session: looks for the toolchain, the library directory and the
    libraries in it. -/
def start (settings : Settings) (env : Environment) (files : FileTree) :
    Except Failure (Session × List Warning) × FileTree :=
  match settings.findToolchain env files with
  | .error e => (.error e, files)
  | .ok root =>
    match settings.openLibraryDirectory env files with
    | (.error e, files) => (.error e, files)
    | (.ok dir, files) =>
      match Library.discover files (runtimeLibrary files root) dir with
      | .error e => (.error e, files)
      | .ok (libraries, warnings) =>
        (.ok ({ settings, toolchainRoot := root, libraries }, warnings), files)

def loader (s : Session) (files : FileTree) : Loader :=
  { files, libraries := s.libraries, defaults := s.settings.substitutions }

def loadGraph (s : Session) (entry : Path) (files : FileTree) :
    Except Failure Graph × List Warning :=
  match (s.loader files).loadEntry entry {} with
  | (.error e, loading) => (.error e, loading.warnings)
  | (.ok (), loading) => (.ok loading.graph, loading.warnings)

/-- Builds a graph in a staging directory that is there, and removes it unless it
    is to be kept. -/
def buildIn (s : Session) (staging : Staging) (t : Toolchain σ) (keep : Bool) (g : Graph)
    (w : World σ) : Except Failure Outcome × World σ :=
  let job : Job := ⟨staging, ⟨s.settings.archiveName⟩⟩
  let (outcome, _, w) := job.build t g w
  if keep then (outcome, w)
  else
    match staging.remove w.files with
    | .error e => (.error (.during (.cleaningUp staging.root) e), w)
    | .ok files => (outcome, w.withFiles files)

def buildFile (s : Session) (host : Host) (entry : Path) (t : Toolchain σ) (keep : Bool)
    (w : World σ) : Except Failure Outcome × World σ :=
  match s.loadGraph entry w.files with
  | (.error e, warnings) => (.error e, w.warn warnings)
  | (.ok g, warnings) =>
    let w := w.warn warnings
    let staging := Staging.ofEntry w.files host.temporaryDirectory host.process entry
    match staging.create w.files with
    | (.error e, files) => (.error e, w.withFiles files)
    | (.ok (), files) => s.buildIn staging t keep g (w.withFiles files)

end Session

end ScriptJar
