import ScriptJar.Build.Toolchain
import ScriptJar.Text.Basic
import ScriptJar.Text.Utf8

/-! # The Java development kit

The tools `javac`, `jar` and `java` of a directory, run as programs.  How programs
run is left to a launcher; here is what is asked of them and what their output
means.

The compiler's error output is read line by line and only up to the first line
that is not UTF-8.  Its time limit counts as long as there is something to read: a
compiler that is not read any more is waited for, however long it takes.  The
archiver's output is read as a whole, with replacement characters where it is not
UTF-8, and its exit code does not count.
-/

namespace ScriptJar

/-! ## Programs -/

structure Command where
  program : Path
  arguments : List String
  deriving DecidableEq, Repr

inductive Ending where
  | exited (code : Nat)
  /-- It was stopped by a signal. -/
  | killed
  /-- It had not ended when its time was up. -/
  | unfinished
  deriving DecidableEq, Repr

def Ending.code? : Ending → Option Nat
  | .exited code => some code
  | _ => none

/-- What a program wrote, and how it ended. -/
structure Execution where
  stdout : List UInt8 := []
  stderr : List UInt8 := []
  /-- Whether it closed its error output before it ended. -/
  closed : Bool := false
  ending : Ending
  /-- When it was started, in milliseconds on the clock. -/
  started : Nat := 0
  deriving DecidableEq, Repr

/-- The clock counts fewer seconds than this. -/
def clockRange : Nat := Nat.pow 2 63

/-- Whether the clock cannot tell when a time limit is over. -/
def Execution.overflows (e : Execution) (limit : Nat) : Bool :=
  decide (clockRange ≤ (e.started + limit) / 1000)

/-- Runs programs.  A program may have a time limit, in milliseconds, after which it is
    stopped; it may change the files, and there is a state that the launcher keeps. -/
structure Launcher (σ : Type) where
  launch : Command → Option Nat → FileTree → σ → Except FileError Execution × FileTree × σ

def Command.hasNul (c : Command) : Bool :=
  (c.program.text :: c.arguments).any fun s => decide ('\x00' ∈ s.toList)

/-- The longest argument, in bytes. -/
def maxArgument : Nat := 131071

def Command.isTooLong (c : Command) : Bool :=
  c.arguments.any fun s => decide (maxArgument < s.utf8ByteSize)

/-- Runs a program.  Names and arguments are passed on up to a NUL character, so a
    command that holds one is refused before anything is looked at; an argument that
    is too long is refused once the program is found.  The end of the time limit is
    worked out when the program has been started. -/
def Launcher.start {σ : Type} (l : Launcher σ) (c : Command) (limit : Option Nat)
    (files : FileTree) (tools : σ) : Except Failure Execution × FileTree × σ :=
  let refused (e : FileError) := e.during (.executing c.program)
  if c.hasNul then (.error (refused .nulInCommand), files, tools)
  else if c.isTooLong && files.isFile c.program then
    (.error (refused .argumentTooLong), files, tools)
  else
    match l.launch c limit files tools with
    | (.error e, files, tools) => (.error (refused e), files, tools)
    | (.ok e, files, tools) =>
      (if limit.any e.overflows then .error .clockOverflow else .ok e, files, tools)

/-! ## Output -/

/-- The lines of a byte sequence.  A line ends at a line feed, and a carriage return
    before it belongs to the end. -/
def byteLines : List UInt8 → List (List UInt8)
  | [] => []
  | b :: rest =>
    if b = 10 then [] :: byteLines rest
    else if b = 13 ∧ rest.head? = some 10 then byteLines rest
    else
      match byteLines rest with
      | [] => [[b]]
      | l :: ls => (b :: l) :: ls

def leadingTextLines (bytes : List UInt8) : List String :=
  (((byteLines bytes).map Text.Utf8.decode?).takeWhile Option.isSome).filterMap
    fun line => line.map String.ofList

/-- The lines of a byte sequence, with replacement characters. -/
def lossyTextLines (bytes : List UInt8) : List String :=
  (Text.lines (Text.Utf8.decodeLossy bytes)).map String.ofList

/-- The digits of a fraction of `count` places, without zeros at the end. -/
def fractionDigits (count n : Nat) : List Char :=
  let digits := Nat.toDigits 10 n
  let padded := List.replicate (count - digits.length) '0' ++ digits
  (padded.reverse.dropWhile (· == '0')).reverse

/-- A number of milliseconds in words: in seconds from one second on. -/
def durationWords (ms : Nat) : String :=
  if ms = 0 then "0ns"
  else if ms < 1000 then s!"{Nat.repr ms}ms"
  else
    let fraction := fractionDigits 3 (ms % 1000)
    let seconds := Nat.repr (ms / 1000)
    if fraction.isEmpty then s!"{seconds}s" else s!"{seconds}.{String.ofList fraction}s"

/-! ## Time limits -/

/-- The lines of a byte sequence that have come to their end. -/
def endedLines (bytes : List UInt8) : List (List UInt8) :=
  byteLines (bytes.reverse.dropWhile (· != 10)).reverse

/-- Whether nothing more is read from a program: it closed its error output, or wrote a
    line that is not UTF-8. -/
def Execution.isCutOff (e : Execution) : Bool :=
  e.closed || (endedLines e.stderr).any fun line => (Text.Utf8.decode? line).isNone

/-- Runs a program until it ends, or until its time is up and it is stopped.  If nothing
    more is read from it by then, the limit is void: what the program comes to is what
    it comes to without one. -/
def Launcher.watch {σ : Type} (l : Launcher σ) (c : Command) (timeout : Nat)
    (files : FileTree) (tools : σ) : Except Failure Execution × FileTree × σ :=
  match l.start c (some timeout) files tools with
  | (.error e, files, tools) => (.error e, files, tools)
  | (.ok e, files', tools') =>
    if e.ending = .unfinished ∧ e.isCutOff then
      let (waited, files, tools) := l.start c none files tools
      let ending := match waited.toOption.bind (·.ending.code?) with
        | some code => .exited code
        | none => .killed
      (.ok { e with ending }, files, tools)
    else (.ok e, files', tools')

/-! ## The tools -/

def toolPath (bin : Path) (name : String) : Path :=
  bin / name

structure Jdk where
  root : Path
  /-- How long the compiler may take, in milliseconds. -/
  timeout : Nat
  deriving DecidableEq, Repr

namespace Jdk

variable {σ : Type}

def bin (jdk : Jdk) : Path := jdk.root / "bin"

def tool (jdk : Jdk) (name : String) : Path := toolPath jdk.bin name

def reportOf (e : Execution) : CompileReport where
  stderr := leadingTextLines e.stderr
  success := e.ending == .exited 0
  timedOut := e.ending == .unfinished

def compile (jdk : Jdk) (l : Launcher σ) (request : CompileRequest) (files : FileTree)
    (tools : σ) : Reply σ CompileReport :=
  let javac := jdk.tool "javac"
  match l.watch ⟨javac, request.arguments⟩ jdk.timeout files tools with
  | (.error e, files, tools) => { result := .error e, files, tools }
  | (.ok e, files, tools) =>
    let warnings :=
      if e.ending = .unfinished then [.timedOut javac (durationWords jdk.timeout)] else []
    { result := .ok (reportOf e), warnings, files, tools }

def archive (jdk : Jdk) (l : Launcher σ) (request : ArchiveRequest) (files : FileTree)
    (tools : σ) : Reply σ ArchiveReport :=
  match l.start ⟨jdk.tool "jar", request.arguments⟩ none files tools with
  | (.error e, files, tools) => { result := .error e, files, tools }
  | (.ok e, files, tools) => { result := .ok ⟨lossyTextLines e.stderr⟩, files, tools }

def toolchain (jdk : Jdk) (l : Launcher σ) : Toolchain σ :=
  ⟨jdk.compile l, jdk.archive l⟩

end Jdk

end ScriptJar
