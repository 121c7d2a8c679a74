import ScriptJar.CommandLine.Run

/-! # The command on a machine

The work is done on a file tree.  The files that a command line may need are read
into one first, and what changed is written back in the end.

No other program is started from here, and class archives are not opened.  A build
therefore ends at the compiler; with `--keep-staging` it leaves the Java sources.
-/

namespace ScriptJar.Machine

/-! ## Reading files into a tree -/

/-- What stands at a path, if anything that can be read does. -/
def probe (p : Path) : IO (Option Node) := do
  try
    let bytes ← IO.FS.readBinFile p.text
    return some (.file (Content.ofBytes bytes.toList))
  catch
    | .inappropriateType _ code _ => return if code = 21 then some .directory else none
    | _ => return none

def emptyTree (workingDirectory : Place) : FileTree where
  workingDirectory := workingDirectory
  nodes := (List.range workingDirectory.length).map fun i =>
    (workingDirectory.take (i + 1), .directory)

def fetch (t : FileTree) (p : Path) : IO FileTree := do
  match ← probe p with
  | none => return t
  | some .directory => return (t.makeDirectories p).2
  | some (.file content) =>
    let t := (t.makeDirectories p.directory).2
    return (t.write p content).toOption.getD t

/-- The scripts that a script in the directory `base` names. -/
def namedScripts (base : Path) (text : String) : List Path :=
  let statements := ((Statement.split text).map Text.trimmed).filter (· ≠ "")
  (statements.zipIdx 1).filterMap fun (statement, position) =>
    match Directive.classify statement position with
    | .companion file => some (base / file)
    | .donor file => some (base / file)
    | _ => none

/-- Reads scripts and all they name into a tree; `bound` limits their number. -/
def fetchScripts : Nat → List Path → FileTree → IO FileTree
  | 0, _, t => return t
  | _, [], t => return t
  | bound + 1, p :: rest, t => do
    if t.isFile p then fetchScripts bound rest t
    else
      let t ← fetch t p
      let named := match t.readText p with
        | .ok text => namedScripts p.directory text
        | .error _ => []
      fetchScripts bound (rest ++ named) t

/-- Reads what an invocation needs: its settings, the directories they name, and
    the scripts. -/
def fetchFor (env : Environment) (inv : Invocation) (t : FileTree) : IO FileTree := do
  match Settings.pathIn env inv.settingsFile with
  | .error _ => return t
  | .ok p =>
    let t ← fetch t p
    let settings := (Settings.load p t).toOption.getD {}
    let named := [settings.toolchainRoot, ⟨env.get "JAVA_HOME"⟩,
      settings.expandedLibraryDirectory env]
    let t ← named.foldlM fetch t
    fetchScripts 10000 inv.script.toList t

/-! ## Writing changes back -/

def writeBack (before after : FileTree) : IO Unit := do
  for (place, n) in after.nodes do
    if before.get? place ≠ some n then
      match n with
      | .directory => IO.FS.createDirAll (FileTree.pathOf place).text
      | .file (.text s) => IO.FS.writeFile (FileTree.pathOf place).text s
      | .file _ => pure ()

/-! ## The machine -/

def variableNames : List String :=
  ["HOME", "XDG_CONFIG_HOME", "JAVA_HOME", "JSC_SETTINGS"]

def environment : IO Environment := do
  let values ← variableNames.filterMapM fun name => do
    return (← IO.getEnv name).map fun value => (name, value)
  return { values }

/-- Where builds are staged; the time stands for the process. -/
def host : IO Host := do
  return ⟨⟨(← IO.getEnv "TMPDIR").getD "/tmp"⟩, ← IO.monoMsNow⟩

def noPrograms : Launcher Unit where
  launch _ _ files tools := (.error .permissionDenied, files, tools)

def workingDirectory : IO Place := do
  let segments := Text.splitOn '/' (toString (← IO.currentDir)).toList
  return (segments.filter (! ·.isEmpty)).map String.ofList

/-! ## The terminal -/

/-- Whether a request asks before it does anything. -/
def asks : Request → Bool
  | .run inv => inv.resetSettings && !inv.yes
  | _ => false

/-- Puts the question of a request, if it has one, and reads the answer. -/
def readAnswer (request : Request) : IO String := do
  if asks request then
    IO.print CommandLine.resetQuestion
    (← IO.getStdout).flush
    (← IO.getStdin).getLine
  else return ""

/-- What is left to print, the question of a request being printed already. -/
def remaining (request : Request) (printed : String) : String :=
  if asks request then
    let rest := Text.after? CommandLine.resetQuestion.toList printed.toList
    String.ofList (rest.getD printed.toList)
  else printed

def serve (request : Request) : IO UInt32 := do
  let env ← environment
  let start := emptyTree (← workingDirectory)
  let files ← match request with
    | .run inv => fetchFor env inv start
    | _ => pure start
  let ctx : CommandLine.Context Unit :=
    { environment := env, host := ← host, launcher := noPrograms
      stdin := ← readAnswer request, build := "unknown" }
  let (exit, w) := CommandLine.runRequest ctx request { files, tools := () }
  writeBack files w.files
  for event in w.log do
    if let .warned warning := event then IO.eprintln s!" WARN {warning.message}"
  IO.print (remaining request exit.stdout)
  IO.eprint exit.stderr
  return exit.code.toUInt32

end ScriptJar.Machine

def main (words : List String) : IO UInt32 :=
  ScriptJar.Machine.serve (ScriptJar.Invocation.parse words)
