import ScriptJar.Directive.Header
import ScriptJar.Reference
import ScriptJar.Substitution

/-! # Modules

A module is what one script declares: a class with its header, its imports and
its code.  Donors are modules whose members are merged into it; a donor may have
donors of its own.
-/

namespace ScriptJar

theorem modify_append {α : Type} (f : α → α) (i : Nat) (xs ys : List α) :
    (xs ++ ys).modify i f =
      if i < xs.length then xs.modify i f ++ ys else xs ++ ys.modify (i - xs.length) f := by
  apply List.ext_getElem?
  intro j
  split <;> grind

/-- What one script declares. -/
structure Module where
  identifier : String
  package : Option String := none
  header : Header := {}
  /-- Classes to import, resolved in the libraries. -/
  references : List Reference := []
  /-- Static imports, as written. -/
  staticImports : List String := []
  substitutions : Substitutions := {}
  classScope : List String := []
  entryScope : List String := []
  donors : List Module := []
  deriving Inhabited, Repr

namespace Module

def qualifiedName (m : Module) : String :=
  match m.package with
  | some p => p ++ "." ++ m.identifier
  | none => m.identifier

/-- The parts of a package name, without empty ones. -/
def packageParts (package : String) : List String :=
  ((Text.splitOn '.' package.toList).filter (! ·.isEmpty)).map String.ofList

/-- The directory of the package, below a source or class directory. -/
def packageDirectory (m : Module) : Path :=
  match m.package with
  | some p => (packageParts p).foldl (fun (dir : Path) (part : String) => dir / part) ⟨""⟩
  | none => ⟨""⟩

def sourcePath (m : Module) : Path :=
  m.packageDirectory / (m.identifier ++ ".java")

/-- The references of the module and then those of its donors, in order. -/
def allReferences (m : Module) : List Reference :=
  m.references ++ m.donors.flatMap references

def modifyInDonors (f : Reference → Reference) : Nat → List Module → List Module
  | _, [] => []
  | i, d :: ds =>
    if i < d.references.length then { d with references := d.references.modify i f } :: ds
    else d :: modifyInDonors f (i - d.references.length) ds

def modifyReference (m : Module) (i : Nat) (f : Reference → Reference) : Module :=
  if i < m.references.length then { m with references := m.references.modify i f }
  else { m with donors := modifyInDonors f (i - m.references.length) m.donors }

theorem references_modifyInDonors (f : Reference → Reference) (i : Nat) (ds : List Module) :
    (modifyInDonors f i ds).flatMap references = (ds.flatMap references).modify i f := by
  induction ds generalizing i with
  | nil => simp [modifyInDonors]
  | cons d ds ih =>
    rw [List.flatMap_cons, modify_append, modifyInDonors]
    split
    · rfl
    · rw [List.flatMap_cons, ih]

theorem allReferences_modifyReference (m : Module) (i : Nat) (f : Reference → Reference) :
    (m.modifyReference i f).allReferences = m.allReferences.modify i f := by
  unfold modifyReference allReferences
  rw [modify_append]
  split
  · rfl
  · rw [← references_modifyInDonors]

end Module

/-- The name of the class that a script declares: its file name without extension. -/
def Path.identifier (p : Path) : String :=
  p.stem?.getD ""

end ScriptJar
