import CprojNinja.Violation

/-!
# Defines

The symbols that a compilation defines: those that the caller adds, then those of the project, less those that the
caller removes. A symbol to remove may be missing, but it must not occur twice, because then it is not clear which
definition is meant.
-/

namespace CprojNinja

/-- `defines` without `name`, which must occur at most once. -/
def removeDefine (defines : List Text) (name : Text) : Except Violation (List Text) :=
  if defines.count name ≤ 1 then .ok (defines.filter (· ≠ name))
  else .error (.repeatedDefine name (defines.count name))

/-- The defines of a compilation. -/
def mergeDefines (added own removed : List Text) : Except Violation (List Text) :=
  removed.foldlM removeDefine (Text.nonEmpty added ++ own)

/-- Without symbols to remove all others are kept. -/
@[simp] theorem mergeDefines_nil (added own : List Text) :
    mergeDefines added own [] = .ok (Text.nonEmpty added ++ own) := rfl

/-- The undefined symbols of a compilation. -/
def mergeUndefines (added own : List Text) : List Text := Text.nonEmpty added ++ own

end CprojNinja
