import ScriptJar.Build.Diagnostic
import ScriptJar.Graph.Basic

/-! # Corrections

After an error, another candidate may be tried for one of the references.  Which
one is guessed in two ways: by the source line, if it ends like the import of a
reference; otherwise by the words of the error, if the requested name stands among
them.  In both cases the first reference that fits is taken, and the correction
fails when that one has no candidate left.
-/

namespace ScriptJar.Graph

open Text

/-- Advances the first reference that fits, and says whether a candidate was left
    for it. -/
def advanceFirst (g : Graph) (fits : Reference → Bool) : Bool × Graph :=
  match g.references.findIdx? fits with
  | none => (false, g)
  | some i => (g.references[i]?.any Reference.canAdvance, g.modifyReference i Reference.advance)

/-- An advance that finds a candidate uses it up; any other leaves as many as there
    were. -/
theorem untried_advanceFirst {g g' : Graph} {fits : Reference → Bool} {moved : Bool}
    (h : g.advanceFirst fits = (moved, g')) : g'.untried + moved.toNat = g.untried := by
  unfold advanceFirst at h
  cases found : g.references.findIdx? fits with
  | none =>
    simp only [found, Prod.mk.injEq] at h
    obtain ⟨rfl, rfl⟩ := h
    simp
  | some i =>
    obtain ⟨lt, _⟩ := List.findIdx?_eq_some_iff_getElem.1 found
    simp only [found, List.getElem?_eq_getElem lt, Option.any_some, Prod.mk.injEq] at h
    obtain ⟨rfl, rfl⟩ := h
    have sum := total_modifyReference Reference.untried Reference.advance
      (List.getElem?_eq_getElem lt)
    by_cases can : g.references[i].canAdvance = true
    · have step := Reference.untried_advance can
      simp only [can, Bool.toNat_true, untried]
      omega
    · have step := Reference.untried_advance_of_last can
      simp only [can, Bool.toNat_false, untried]
      omega

def endsLine (line : List Char) (r : Reference) : Bool :=
  (r.current.toList ++ [';']).isSuffixOf line

/-- Corrects the reference whose import a source line seems to be. -/
def correctByLine (g : Graph) (line : String) : Bool × Graph :=
  g.advanceFirst (endsLine (trimEnd line.toList))

def isMentioned (text : List Char) (r : Reference) : Bool :=
  occursIn ([' '] ++ r.raw.toList ++ [' ']) text

def correctLoosely (g : Graph) (text : String) : Bool × Graph :=
  g.advanceFirst (isMentioned text.toList)

/-- Corrects a reference after a diagnostic: by the source line, if it can be read,
    and else by the text. -/
def correct (g : Graph) (files : FileTree) (d : Diagnostic) : Bool × Graph × List Warning :=
  match d.sourceLine files with
  | .error e =>
    let (moved, g) := g.correctLoosely d.text
    (moved, g, [.unreadableSource d.file e])
  | .ok none =>
    let (moved, g) := g.correctLoosely d.text
    (moved, g, [])
  | .ok (some line) =>
    match g.correctByLine line with
    | (true, g) => (true, g, [])
    | (false, g) =>
      let (moved, g) := g.correctLoosely d.text
      (moved, g, [])

theorem untried_correct {g g' : Graph} {files : FileTree} {d : Diagnostic} {moved : Bool}
    {ws : List Warning} (h : g.correct files d = (moved, g', ws)) :
    g'.untried + moved.toNat = g.untried := by
  unfold correct at h
  cases line : d.sourceLine files with
  | error e =>
    simp only [line, Prod.mk.injEq] at h
    exact untried_advanceFirst (Prod.ext h.1 h.2.1)
  | ok line? =>
    cases line? with
    | none =>
      simp only [line, Prod.mk.injEq] at h
      exact untried_advanceFirst (Prod.ext h.1 h.2.1)
    | some text =>
      obtain ⟨first, g₁, byLine⟩ : ∃ first g₁, g.correctByLine text = (first, g₁) := ⟨_, _, rfl⟩
      have used := untried_advanceFirst byLine
      cases first with
      | true =>
        simp only [line, byLine, Prod.mk.injEq] at h
        rwa [← h.1, ← h.2.1]
      | false =>
        simp only [line, byLine, Prod.mk.injEq] at h
        exact (untried_advanceFirst (Prod.ext h.1 h.2.1)).trans used

end ScriptJar.Graph
