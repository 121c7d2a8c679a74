/-! # What can go wrong with files and programs

The reasons for which the system refuses to handle a file or to start a program,
with the words it uses.
-/

namespace ScriptJar

inductive FileError where
  | notFound
  | permissionDenied
  | alreadyExists
  | notADirectory
  | isADirectory
  | nameTooLong
  | nulInPath
  | nulInCommand
  | argumentTooLong
  /-- The content was asked for as text and is none. -/
  | notText
  deriving DecidableEq, Repr

def FileError.message : FileError → String
  | .notFound => "No such file or directory (os error 2)"
  | .permissionDenied => "Permission denied (os error 13)"
  | .alreadyExists => "File exists (os error 17)"
  | .notADirectory => "Not a directory (os error 20)"
  | .isADirectory => "Is a directory (os error 21)"
  | .nameTooLong => "File name too long (os error 36)"
  | .nulInPath => "file name contained an unexpected NUL byte"
  | .nulInCommand => "nul byte found in provided data"
  | .argumentTooLong => "Argument list too long (os error 7)"
  | .notText => "stream did not contain valid UTF-8"

end ScriptJar
