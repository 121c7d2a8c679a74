import ScriptJar.Module

/-! # Java source

The Java text of a module: the package, the imports, the type with its entry point
and members, and the closing brace.  Donors give their imports and members, which
come before the module's own.  The substitutions of the module and its donors are
applied to every statement of the text.
-/

namespace ScriptJar.Module

/-- The module's substitutions, and those of its donors for keys it does not set. -/
def effectiveSubstitutions (m : Module) : Substitutions :=
  m.donors.foldl (fun t d => t.mergeMissing d.substitutions) m.substitutions

def importLine (r : Reference) : String :=
  s!"import {r.current};"

/-- The imports of the donors, of the module, and the static ones. -/
def importLines (m : Module) : List String :=
  (m.donors.flatMap references ++ m.references).map importLine
    ++ m.staticImports.map fun name => s!"import static {name};"

def typeLine (m : Module) : String :=
  let h := m.header
  let generics := if h.generics.isEmpty then "" else "<" ++ ",".intercalate h.generics ++ ">"
  let superclass := match h.superclass with
    | none => ""
    | some s => if s.isEmpty then "" else s!" extends {s}"
  let contracts :=
    if h.contracts.isEmpty then "" else " implements " ++ ",".intercalate h.contracts
  s!"public {h.kind.keyword} {m.identifier}{generics}{superclass}{contracts} \x7b"

/-- The entry point, which an interface does not have. -/
def entryLines (m : Module) : List String :=
  if m.header.kind = .interface then []
  else "public static void main(String[] args) \x7b" :: m.entryScope ++ ["\x7d"]

def plainLines (m : Module) : List String :=
  (m.package.toList.map fun p => s!"package {p};") ++ m.importLines ++ [m.typeLine]
    ++ m.entryLines ++ m.donors.flatMap classScope ++ m.classScope ++ ["\x7d"]

def javaLines (m : Module) : List String :=
  m.plainLines.map m.effectiveSubstitutions.apply

def javaText (m : Module) : String :=
  "\n".intercalate m.javaLines ++ "\n"

end ScriptJar.Module
