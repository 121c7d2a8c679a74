import ScriptJar.FileTree.Basic
import ScriptJar.Library.Basic
import ScriptJar.Module

/-! # Packaging

What goes into the archive besides the classes themselves: the manifest, which
names the entry class and the libraries, and the list of class files.
-/

namespace ScriptJar

/-! ## The manifest -/

def manifestItem (library : Path) : String :=
  Text.replaceAllIn " " "%20" library.text

def manifestText (mainClass : String) (libraries : List Path) : String :=
  s!"Main-Class: {mainClass}\n"
    ++ if libraries.isEmpty then ""
      else "Class-Path: " ++ " ".intercalate (libraries.map manifestItem) ++ "\n"

/-! ## Class files -/

namespace Module

/-- A class file of the module, below the class directory. -/
def classFile (m : Module) (suffix : String) : Path :=
  m.packageDirectory / (m.identifier ++ suffix ++ ".class")

def numberedClass (m : Module) (i : Nat) : Path :=
  m.classFile ("$" ++ Nat.repr i)

/-- The files of the anonymous classes: number 0 if it is there, and the numbers
    from 1 up to the first gap.  There are no more of them than files. -/
def numberedClasses (files : FileTree) (classes : Path) (m : Module) : List Path :=
  let isThere := fun i => files.isFile (classes / m.numberedClass i)
  let numbers := (List.range' 1 files.nodes.length).takeWhile isThere
  ((if isThere 0 then [0] else []) ++ numbers).map m.numberedClass

def isNamedClass (m : Module) (file : String) : Bool :=
  match (Text.after? (m.identifier.toList ++ ['$']) file.toList).bind
      (Text.before? ".class".toList) with
  | none => false
  | some inner => !inner.isEmpty && !inner.all Char.isDigit

/-- The files of the nested classes with names of their own, in the order of their
    names. -/
def namedClasses (files : FileTree) (classes : Path) (m : Module) : List Path :=
  match files.list (classes / m.packageDirectory) with
  | .error _ => []
  | .ok names =>
    ((names.filter m.isNamedClass).mergeSort Library.nameLe).map
      fun name : String => m.packageDirectory / name

/-- The class files of the module, below the class directory: the class itself, the
    anonymous ones and the named nested ones. -/
def classEntries (files : FileTree) (classes : Path) (m : Module) : List Path :=
  m.classFile "" :: (m.numberedClasses files classes ++ m.namedClasses files classes)

end Module

end ScriptJar
