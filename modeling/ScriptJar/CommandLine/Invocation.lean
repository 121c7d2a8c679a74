import ScriptJar.Path

/-! # The command line

What the words of the command line ask for.  Options may stand before the script
and right after it, up to the first argument of the program; from there on, and
after `--`, every word is taken as it is.  A word that looks like an option and is
none is an error before the script, and the first argument of the program after it.
-/

namespace ScriptJar

structure Invocation where
  script : Option Path := none
  arguments : List String := []
  settingsFile : Option Path := none
  noRun : Bool := false
  keepStaging : Bool := false
  showSettings : Bool := false
  resetSettings : Bool := false
  /-- Whether questions are answered with yes. -/
  yes : Bool := false
  verbose : Bool := false
  deriving DecidableEq, Repr

inductive Request where
  | run (invocation : Invocation)
  | help
  | version
  /-- The command line is wrong. -/
  | usage
  deriving DecidableEq, Repr

namespace Invocation

/-! ## Options -/

inductive Flag where
  | noRun
  | keepStaging
  | showSettings
  | resetSettings
  | yes
  | verbose
  | help
  | version
  deriving DecidableEq, Repr

def longFlags : List (String × Flag) :=
  [("no-run", .noRun), ("keep-staging", .keepStaging), ("show-settings", .showSettings),
    ("reset-settings", .resetSettings), ("yes", .yes), ("verbose", .verbose),
    ("help", .help), ("version", .version)]

def shortFlags : List (Char × Flag) :=
  [('y', .yes), ('v', .verbose), ('h', .help), ('V', .version)]

/-- What a word of the command line is. -/
inductive Word where
  /-- `--` -/
  | separator
  /-- Flags; `none` is a letter that is no flag. -/
  | flags (letters : List (Option Flag))
  /-- The option for the settings file, perhaps with its value. -/
  | settings (value : Option String)
  | value
  /-- An option that there is not, or one with a value it does not take. -/
  | invalid
  deriving DecidableEq, Repr

def longWord (afterScript : Bool) (s : List Char) : Word :=
  let name := String.ofList (s.takeWhile (· ≠ '='))
  let value := (s.dropWhile (· ≠ '=')).tail?
  if name = "settings-file" then .settings (value.map String.ofList)
  else
    match longFlags.lookup name, value with
    | some flag, none => .flags [some flag]
    | some _, some _ => .invalid
    | none, _ => if afterScript then .value else .invalid

def shortWord (afterScript : Bool) (s : List Char) : Word :=
  let letters := s.map fun c => shortFlags.lookup c
  if afterScript && letters.any Option.isNone then .value else .flags letters

def word (afterScript : Bool) (s : String) : Word :=
  match s.toList with
  | ['-', '-'] => .separator
  | '-' :: '-' :: rest => longWord afterScript rest
  | ['-'] => .value
  | '-' :: rest => shortWord afterScript rest
  | _ => .value

/-! ## Reading the words -/

/-- Sets a switch, which must not be set already. -/
def switch (isSet : Bool) (inv : Invocation) : Except Request Invocation :=
  if isSet then .error .usage else .ok inv

def takeFlag (inv : Invocation) : Option Flag → Except Request Invocation
  | none => .error .usage
  | some .help => .error .help
  | some .version => .error .version
  | some .noRun => switch inv.noRun { inv with noRun := true }
  | some .keepStaging => switch inv.keepStaging { inv with keepStaging := true }
  | some .showSettings => switch inv.showSettings { inv with showSettings := true }
  | some .resetSettings => switch inv.resetSettings { inv with resetSettings := true }
  | some .yes => switch inv.yes { inv with yes := true }
  | some .verbose => switch inv.verbose { inv with verbose := true }

/-- Takes the settings file, which must have a name and must not be set already. -/
def takeSettings (inv : Invocation) (value : String) : Except Request Invocation :=
  if value = "" ∨ inv.settingsFile.isSome then .error .usage
  else .ok { inv with settingsFile := some ⟨value⟩ }

/-- Takes the script, which must have a name. -/
def takeScript (inv : Invocation) (value : String) : Except Request Invocation :=
  if value = "" then .error .usage else .ok { inv with script := some ⟨value⟩ }

/-- The end of the command line.  Only what concerns the settings does without a
    script. -/
def finish (inv : Invocation) : Request :=
  if inv.script.isNone && !inv.showSettings && !inv.resetSettings then .usage else .run inv

/-- Takes the remaining words as they are: the script, if it is not given yet, and
    the arguments. -/
def takeRest (inv : Invocation) (words : List String) : Request :=
  match inv.script, words with
  | some _, _ => finish { inv with arguments := words }
  | none, [] => finish inv
  | none, script :: arguments =>
    match inv.takeScript script with
    | .error r => r
    | .ok inv => finish { inv with arguments }

/-- Reads the words from left to right; `owed` says whether the value of the option
    for the settings file comes next. -/
def readWords : Bool → Invocation → List String → Request
  | true, _, [] => .usage
  | false, inv, [] => finish inv
  | true, inv, s :: rest =>
    match word inv.script.isSome s with
    | .value =>
      match inv.takeSettings s with
      | .error r => r
      | .ok inv => readWords false inv rest
    | _ => .usage
  | false, inv, s :: rest =>
    match word inv.script.isSome s with
    | .separator => inv.takeRest rest
    | .invalid => .usage
    | .settings none => readWords true inv rest
    | .settings (some value) =>
      match inv.takeSettings value with
      | .error r => r
      | .ok inv => readWords false inv rest
    | .flags letters =>
      match letters.foldlM takeFlag inv with
      | .error r => r
      | .ok inv => readWords false inv rest
    | .value =>
      if inv.script.isSome then inv.takeRest (s :: rest)
      else
        match inv.takeScript s with
        | .error r => r
        | .ok inv => readWords false inv rest

def parse (words : List String) : Request :=
  readWords false {} words

end Invocation

end ScriptJar
