import ScriptJar.Path
import ScriptJar.Substitution

/-! # Settings

What the user can set, and what holds until something is set.
-/

namespace ScriptJar

structure Settings where
  /-- The directory of the toolchain; if empty, the environment names it. -/
  toolchainRoot : Path := ⟨""⟩
  /-- The directory of the libraries, with `$home` for the user's home directory. -/
  libraryDirectory : String := "$home/.jrt-libs"
  substitutions : Substitutions := Substitutions.ofList [("#print", "System.out.println")]
  /-- How long the compiler may take, in seconds. -/
  compileTimeout : UInt64 := 120
  archiveName : String := "JSCRuntime.jar"
  deriving DecidableEq, Repr

namespace Settings

/-- How long the compiler may take, in seconds; at least one. -/
def timeoutSeconds (s : Settings) : Nat :=
  max s.compileTimeout.toNat 1

end Settings

end ScriptJar
