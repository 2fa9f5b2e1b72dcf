import CprojNinja.Text.Basic

/-!
# Violated contracts

Some calls promise something that the program relies on: that a configuration is selected before its properties are
read, that a define to remove is there at most once, that a C project lists no C++ source. A broken promise is not an
error of the project or of the disk: the run stops at once and leaves nothing behind.
-/

namespace CprojNinja

/-- A promise that was not kept. -/
inductive Violation where
  /-- A property was read while no configuration was selected. -/
  | noSelection (key : Text)
  /-- A define that should be removed occurs more than once. -/
  | repeatedDefine (name : Text) (count : Nat)
  /-- A C project lists a C++ source. -/
  | foreignSource (file : Text)
  deriving Repr, DecidableEq

/-- How a violation is reported. -/
def Violation.message : Violation → Text
  | noSelection key => "No configuration selected while reading key " ++ key
  | repeatedDefine name count => "define " ++ name ++ " to remove occurs " ++ Nat.toDigits 10 count ++ " times"
  | foreignSource file => "C++ source " ++ file ++ " in a C project"

end CprojNinja
