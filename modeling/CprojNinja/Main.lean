import CprojNinja.CommandLine

/-!
# The program

The outer layer: the file system of the host, its environment, and the printing of the warnings and of the outcome.
-/

namespace CprojNinja

/-- The fault that an exception of the host stands for. -/
def Fault.ofHost : IO.Error → Fault
  | .noFileOrDirectory .. => .notFound
  | .alreadyExists .. => .alreadyExists
  | .inappropriateType _ code _ => if code = 20 then .notDirectory else .isDirectory
  | e => .other (toString e)

/-- Runs an operation of the host and returns its fault. -/
def catchFault {α : Type} (operation : IO α) : IO (Except Fault α) := do
  try
    return .ok (← operation)
  catch e =>
    return .error (.ofHost e)

/-- Whether an operation of the host succeeds. -/
def succeeds {α : Type} (operation : IO α) : IO Bool := return (← catchFault operation).isOk

instance : FileSystem IO where
  readText path := do
    match ← catchFault (IO.FS.readBinFile (String.ofList path)) with
    | .error fault => return .error fault
    | .ok bytes =>
      match String.fromUTF8? bytes with
      | some content => return .ok content
      | none => return .error .notText
  isFile path := succeeds (IO.FS.readBinFile (String.ofList path))
  isDirectory path := return (← catchFault (IO.FS.readBinFile (String.ofList path))) matches .error .isDirectory
  makeDirectory path := catchFault (IO.FS.createDir (String.ofList path))
  writeText path text := catchFault (IO.FS.writeFile (String.ofList path) (String.ofList text))
  rename source target := catchFault (IO.FS.rename (String.ofList source) (String.ofList target))
  remove path := catchFault (IO.FS.removeFile (String.ofList path))

instance : Console IO where
  warn w := IO.eprintln (String.ofList w.message)

/-- The environment in which the program runs. -/
def hostEnvironment : IO Environment := do
  let current ← catchFault IO.currentDir
  let config ← IO.getEnv "XDG_CONFIG_HOME"
  let home ← IO.getEnv "HOME"
  return {
    currentDirectory := current.toOption.map fun path => path.toString.toList
    configDirectory := (config.map String.toList).or (home.map fun dir => Path.join dir.toList ".config") }

/-- What is told about a failure apart from the outcome itself. -/
def complaint? : Outcome → Option Text
  | .misuse => some usage
  | .conversionFailed e => e.violation?.map Violation.message
  | _ => none

end CprojNinja

/-- Runs the program. -/
def main (arguments : List String) : IO UInt32 := do
  let environment ← CprojNinja.hostEnvironment
  let outcome : CprojNinja.Outcome ← CprojNinja.runProgram environment (arguments.map String.toList)
  for line in outcome.line? do
    IO.println (String.ofList line)
  for complaint in CprojNinja.complaint? outcome do
    IO.eprintln (String.ofList complaint)
  return outcome.exitCode.toUInt32
