import ScriptJar.Build.Toolchain

/-! # The world of a build

What a build changes: the files, the state of the toolchain, and a log of what
happened.  The log holds every call of a tool, with the files as the tool found
them, and every warning.
-/

namespace ScriptJar

inductive Event where
  | warned (warning : Warning)
  | compiled (request : CompileRequest) (found : FileTree)
    (result : Except Failure CompileReport)
  | archived (request : ArchiveRequest) (found : FileTree)
    (result : Except Failure ArchiveReport)

/-- The files, the state of the toolchain, and what happened so far. -/
structure World (σ : Type) where
  files : FileTree
  tools : σ
  log : List Event := []

namespace World

variable {σ : Type}

def warn (w : World σ) (ws : List Warning) : World σ :=
  { w with log := w.log ++ ws.map .warned }

def withFiles (w : World σ) (files : FileTree) : World σ :=
  { w with files }

def compile (w : World σ) (t : Toolchain σ) (request : CompileRequest) :
    Except Failure CompileReport × World σ :=
  let reply := t.compile request w.files w.tools
  let log := w.log ++ .compiled request w.files reply.result :: reply.warnings.map .warned
  (reply.result, { files := reply.files, tools := reply.tools, log })

def archive (w : World σ) (t : Toolchain σ) (request : ArchiveRequest) :
    Except Failure ArchiveReport × World σ :=
  let reply := t.archive request w.files w.tools
  let log := w.log ++ .archived request w.files reply.result :: reply.warnings.map .warned
  (reply.result, { files := reply.files, tools := reply.tools, log })

end World

end ScriptJar
