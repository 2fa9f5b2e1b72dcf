import CprojNinja.Text.Basic

/-!
# Linker scripts

A program depends on the script that tells the linker where to put it. The script is passed to the linker by `-T`,
anywhere among its flags, and the last one counts. Its path is seen from the build directory, so one step up is taken
off to see it from the directory of the project.
-/

namespace CprojNinja

/-- The script in what follows a `-T`: it ends at a blank. -/
def scriptPath (rest : Text) : Text := Text.withoutStart "../" (rest.takeWhile (· ≠ ' '))

/-- The scripts named in a flag, in order. -/
def scriptsIn : Text → List Text
  | [] => []
  | c :: s =>
    match Text.dropStart? "-T" (c :: s) with
    | some rest => scriptPath rest :: scriptsIn s
    | none => scriptsIn s

/-- The linker script among some flags. -/
def linkerScript? (flags : List Text) : Option Text := (flags.flatMap scriptsIn).getLast?

/-- Of two lists of flags the second one decides if it names a script. -/
theorem linkerScript?_append (first second : List Text) :
    linkerScript? (first ++ second) = (linkerScript? second).or (linkerScript? first) := by
  simp [linkerScript?, List.flatMap_append, List.getLast?_append]

end CprojNinja
