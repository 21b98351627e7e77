import RubySupervisor.Text.Digit

/-!
# Failures of file access

Why an access to the file tree failed, with the wording of the operating system.
-/

namespace RubySupervisor

/-- Why a file could not be accessed. -/
inductive FileError where
  | notFound
  | permissionDenied
  | alreadyExists
  | notADirectory
  | isADirectory
  | directoryNotEmpty
  | tooManyLinks
  | nameTooLong
  | notExecutable
  | nulInName
  /-- What is handed over to a process holds a byte that ends texts. -/
  | nulInData
  | notText
  | other
  deriving DecidableEq, Repr

namespace FileError

/-- What the system calls the failure. -/
def reason : FileError → String
  | notFound => "No such file or directory"
  | permissionDenied => "Permission denied"
  | alreadyExists => "File exists"
  | notADirectory => "Not a directory"
  | isADirectory => "Is a directory"
  | directoryNotEmpty => "Directory not empty"
  | tooManyLinks => "Too many levels of symbolic links"
  | nameTooLong => "File name too long"
  | notExecutable => "Exec format error"
  | nulInName => "file name contained an unexpected NUL byte"
  | nulInData => "nul byte found in provided data"
  | notText => "stream did not contain valid UTF-8"
  | other => "other error"

/-- The number that the system has for the failure, where it is one of the system's own. -/
def number? : FileError → Option Nat
  | notFound => some 2
  | permissionDenied => some 13
  | alreadyExists => some 17
  | notADirectory => some 20
  | isADirectory => some 21
  | directoryNotEmpty => some 39
  | tooManyLinks => some 40
  | nameTooLong => some 36
  | notExecutable => some 8
  | _ => none

/-- The wording of the failure. -/
def message (e : FileError) : String :=
  e.reason ++ e.number?.elim "" (fun n => " (os error " ++ Text.natText n ++ ")")

end FileError

end RubySupervisor
