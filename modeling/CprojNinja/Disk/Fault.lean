import CprojNinja.Text.Basic

/-!
# Faults

The ways in which an operation on a file or a directory can fail. The message of a fault is what the system says,
together with the number that it gives to the fault.
-/

namespace CprojNinja

/-- Why an operation on a file or a directory failed. -/
inductive Fault where
  /-- A component of the path does not exist. -/
  | notFound
  /-- What should be made exists already. -/
  | alreadyExists
  /-- Something on the way is a file and not a directory. -/
  | notDirectory
  /-- A file was expected and a directory was found. -/
  | isDirectory
  /-- A component of the path, or the path itself, is longer than the system allows. -/
  | nameTooLong
  /-- The path contains a null character. -/
  | nullInName
  /-- The bytes of the file are not text in UTF-8. -/
  | notText
  /-- Any other failure, with the message that the system gives. -/
  | other (message : Text)
  deriving Repr, DecidableEq

/-- What the system says about a fault. -/
def Fault.message : Fault → Text
  | notFound => "No such file or directory (os error 2)"
  | alreadyExists => "File exists (os error 17)"
  | notDirectory => "Not a directory (os error 20)"
  | isDirectory => "Is a directory (os error 21)"
  | nameTooLong => "File name too long (os error 36)"
  | nullInName => "file name contained an unexpected NUL byte"
  | notText => "stream did not contain valid UTF-8"
  | other message => message

end CprojNinja
