import ScriptJar.Build.Session
import ScriptJar.CommandLine.Invocation
import ScriptJar.Jdk

/-! # Running the command

`CommandLine.run` does what a command line asks for: it shows or resets the
settings, or it builds the script and runs the archive.  The answer is what goes to
the terminal and the exit code; files, tools and log are in the world.
-/

namespace ScriptJar.CommandLine

variable {σ : Type}

/-! ## The terminal -/

structure Exit where
  code : Nat := 0
  stdout : String := ""
  stderr : String := ""
  deriving DecidableEq, Repr

def Exit.ofFailure (e : Failure) (printed : String) : Exit :=
  { code := 1, stdout := printed, stderr := s!"error: {e.message}\n" }

/-- The exit when the program ends on the spot. -/
def Exit.ofPanic (e : Failure) : Exit :=
  { code := 101, stderr := s!"{e.message}\n" }

structure Context (σ : Type) where
  environment : Environment := {}
  host : Host
  launcher : Launcher σ
  /-- What can be read from the terminal. -/
  stdin : String := ""
  /-- The mark of this build, shown with the version. -/
  build : String := ""

def versionText (build : String) : String :=
  s!"jsc 0.1.0 ({build})\n"

def usageText : String :=
  "Usage: jsc [OPTIONS] [FILE] [ARGS]...\n"

def helpText : String :=
  "Build a JSC script into a runnable jar and run it\n\n" ++ usageText ++ "\nOptions:
      --no-run                Build the archive but do not run it
      --keep-staging          Leave the staging directory in place
      --settings-file <FILE>  Settings file to use instead of the default location
      --show-settings         Print the settings file location and contents
      --reset-settings        Restore default settings
  -y, --yes                   Do not ask before resetting settings
  -v, --verbose               Debug logging
  -h, --help                  Print help
  -V, --version               Print version\n"

/-! ## Settings -/

def resetQuestion : String :=
  "Reset all settings to defaults? (y/n): "

def isYes (answer : String) : Bool :=
  Text.asciiLower (Text.trimmed answer) == "y"

def firstLine (stdin : String) : String :=
  (Text.linesOf stdin).head?.getD ""

def reset (ctx : Context σ) (inv : Invocation) (p : Path) (w : World σ) : Exit × World σ :=
  let question := if inv.yes then "" else resetQuestion
  if inv.yes || isYes (firstLine ctx.stdin) then
    let defaults : Settings := {}
    match defaults.save p w.files with
    | (.error e, files) => (.ofFailure e question, w.withFiles files)
    | (.ok (), files) =>
      ({ stdout := question ++ s!"settings reset: {p.text}\n" }, w.withFiles files)
  else ({ stdout := question }, w)

/-! ## Building and running -/

def runArchive (ctx : Context σ) (root archive : Path) (arguments : List String)
    (w : World σ) : Exit × World σ :=
  let java := toolPath (root / "bin") "java"
  match ctx.launcher.start ⟨java, ["-jar", archive.text] ++ arguments⟩ none w.files w.tools with
  | (.error e, files, tools) => (.ofFailure e "", { w with files, tools })
  | (.ok e, files, tools) =>
    ({ code := e.ending.code?.getD 1
       stdout := String.ofList (Text.Utf8.decodeLossy e.stdout)
       stderr := String.ofList (Text.Utf8.decodeLossy e.stderr) },
      { w with files, tools })

def conclude (ctx : Context σ) (inv : Invocation) (script root : Path) (outcome : Outcome)
    (w : World σ) : Exit × World σ :=
  match outcome with
  | .failed diagnostics =>
    ({ code := 1, stderr := s!"errors in {script.text}:\n{diagnostics}\n" }, w)
  | .packaged archive compilerErrors archiverErrors _ =>
    if !outcome.isRunnable then
      let lines := (compilerErrors ++ archiverErrors).map (· ++ "\n")
      ({ code := 1
         stderr := s!"errors while packaging {archive.text}:\n" ++ String.join lines }, w)
    else if inv.noRun then ({ stdout := archive.text ++ "\n" }, w)
    else runArchive ctx root archive inv.arguments w

def buildAndRun (ctx : Context σ) (inv : Invocation) (settings : Settings) (script : Path)
    (w : World σ) : Exit × World σ :=
  match Session.start settings ctx.environment w.files with
  | (.error e, files) => (.ofFailure e "", w.withFiles files)
  | (.ok (session, warnings), files) =>
    let w := (w.withFiles files).warn warnings
    let jdk : Jdk := ⟨session.toolchainRoot, 1000 * settings.timeoutSeconds⟩
    let build (keep : Bool) :=
      session.buildFile ctx.host script (jdk.toolchain ctx.launcher) keep w
    match build inv.keepStaging with
    | (.ok outcome, w) => conclude ctx inv script session.toolchainRoot outcome w
    | (.error e, left) =>
      match build true with
      -- nothing is done on the way out, so the staging directory stays
      | (.error .clockOverflow, w) => (.ofPanic .clockOverflow, w)
      | _ => (.ofFailure e "", left)

def runWith (ctx : Context σ) (inv : Invocation) (p : Path) (settings : Settings)
    (w : World σ) : Exit × World σ :=
  if inv.showSettings then ({ stdout := s!"{p.text}\n{settings.render}\n" }, w)
  else
    match inv.script with
    | none => (.ofFailure .noScript "", w)
    | some script =>
      if script.extension? = some "jsc" then buildAndRun ctx inv settings script w
      else (.ofFailure (.notAScript script) "", w)

def runInvocation (ctx : Context σ) (inv : Invocation) (w : World σ) : Exit × World σ :=
  match Settings.pathIn ctx.environment inv.settingsFile with
  | .error e => (.ofFailure e "", w)
  | .ok p =>
    if inv.resetSettings then reset ctx inv p w
    else
      match Settings.loadOrInit p w.files with
      | (.error e, files) => (.ofFailure e "", w.withFiles files)
      | (.ok settings, files) => runWith ctx inv p settings (w.withFiles files)

def runRequest (ctx : Context σ) (request : Request) (w : World σ) : Exit × World σ :=
  match request with
  | .usage => ({ code := 2, stderr := usageText }, w)
  | .help => ({ stdout := helpText }, w)
  | .version => ({ stdout := versionText ctx.build }, w)
  | .run inv => runInvocation ctx inv w

def run (ctx : Context σ) (words : List String) (w : World σ) : Exit × World σ :=
  runRequest ctx (Invocation.parse words) w

end ScriptJar.CommandLine
