import ScriptJar.Text.Basic

/-! # Statements

A script is a sequence of statements.  `Statement.split` cuts its text into them
and drops the comments on the way.

The text is read line by line.  A statement ends after a `;` of the code outside
all braces, and at the start of a line once every brace it opened is closed.
Braces and semicolons count only where they are code: not in comments, in string
literals, in character literals or between two `\"` marks.  Block comments and
open braces go on over line ends; literals and marks do not.

* `Mode` and `step` — what the next character is part of;
* `Draft` — the text gathered so far;
* `scanLine`, `split` — one line, and the whole text.
-/

namespace ScriptJar.Statement

/-! ## What a character is part of -/

/-- What the next character of a line is part of. -/
inductive Mode where
  | code
  /-- Code between two `\"` marks. -/
  | marked
  | string
  | comment
  /-- A comment to the end of the line. -/
  | remark
  /-- The rest of a two-character sign, dropped; then `next`. -/
  | skip (next : Mode)
  /-- `more + 1` characters taken as they are; then `next`. -/
  | copy (more : Nat) (next : Mode)
  deriving DecidableEq, Repr

/-- The number of characters before the `'` that closes a character literal, given
    the line after the opening one.  A backslash hides the character after it. -/
def literalSpan? : List Char → Option Nat
  | [] => none
  | '\'' :: _ => some 0
  | '\\' :: _ :: rest => (literalSpan? rest).map (· + 2)
  | _ :: rest => (literalSpan? rest).map (· + 1)

/-! ## The text gathered so far -/

structure Draft where
  /-- Finished statements, the newest first. -/
  finished : List String := []
  /-- The pending statement, its last character first. -/
  pending : List Char := []
  depth : Nat := 0
  deriving DecidableEq, Repr

namespace Draft

def push (d : Draft) (c : Char) : Draft :=
  { d with pending := c :: d.pending }

def finish (d : Draft) : Draft :=
  { d with finished := String.ofList d.pending.reverse :: d.finished, pending := [] }

/-- Adds a character of the code: braces are counted, and a `;` outside them ends
    the statement.  A closing brace too many counts for nothing. -/
def pushCode (d : Draft) (c : Char) : Draft :=
  if c = '{' then { d.push c with depth := d.depth + 1 }
  else if c = '}' then { d.push c with depth := d.depth - 1 }
  else if c = ';' ∧ d.depth = 0 then (d.push c).finish
  else d.push c

/-- The start of a line.  Outside comments and braces it ends a pending statement;
    otherwise the line goes on with it. -/
def startLine (d : Draft) (inComment : Bool) : Draft :=
  if d.pending.isEmpty then d
  else if !inComment && d.depth == 0 then d.finish
  else d.push '\n'

end Draft

/-! ## Scanning -/

/-- One character of a line, `rest` being what follows it there. -/
def step (m : Mode) (d : Draft) (c : Char) (rest : List Char) : Mode × Draft :=
  match m with
  | .comment => if c = '*' ∧ rest.head? = some '/' then (.skip .code, d) else (.comment, d)
  | .remark => (.remark, d)
  | .skip next => (next, d)
  | .copy 0 next => (next, d.push c)
  | .copy (more + 1) next => (.copy more next, d.push c)
  | .string =>
    if c = '\\' ∧ rest ≠ [] then (.copy 0 .string, d.push c)
    else if c = '"' then (.code, d.push c)
    else (.string, d.push c)
  | .marked =>
    if c = '\\' ∧ rest.head? = some '"' then (.copy 0 .code, d.push c)
    else (.marked, d.push c)
  | .code =>
    if c = '\\' ∧ rest.head? = some '"' then (.copy 0 .marked, d.push c)
    else if c = '/' ∧ rest.head? = some '/' then (.remark, d)
    else if c = '/' ∧ rest.head? = some '*' then (.skip .comment, d)
    else if c = '"' then (.string, d.push c)
    else if c = '\'' then
      -- a quote without a partner on the line stands for itself
      match literalSpan? rest with
      | some more => (.copy more .code, d.push c)
      | none => (.code, d.push c)
    else (.code, d.pushCode c)

def scan : Mode → Draft → List Char → Mode × Draft
  | m, d, [] => (m, d)
  | m, d, c :: rest =>
    let next := step m d c rest
    scan next.1 next.2 rest

/-- A line, given whether it starts inside a block comment.  The answer says
    whether it ends inside one. -/
def scanLine (state : Bool × Draft) (line : List Char) : Bool × Draft :=
  let (mode, draft) :=
    scan (if state.1 then .comment else .code) (state.2.startLine state.1) line
  (mode == .comment, draft)

/-- The statements of a text, in order and without comments.  What is pending at
    the end is the last one, even when it is blank. -/
def split (text : String) : List String :=
  ((Text.lines text.toList).foldl scanLine (false, {})).2.finish.finished.reverse

end ScriptJar.Statement
