import CprojNinja.Disk.Basic
import CprojNinja.Settings.Basic

/-!
# Settings files

Settings are loaded from the file that the user names. If the user names none, the current directory and then the user's
configuration directory are searched, and without a file there the settings are empty.
-/

namespace CprojNinja

/-- Why settings were not loaded. -/
inductive SettingsError where
  /-- The file was not read. -/
  | unreadable (path : Path) (fault : Fault)
  /-- The file holds no settings. -/
  | malformed (path : Path)
  deriving Repr, DecidableEq

/-- How an error of settings is reported. What is wrong in a file is not said. -/
def SettingsError.message : SettingsError → Text
  | unreadable path fault => "Error opening " ++ path ++ ": " ++ fault.message
  | malformed path => "Error reading " ++ path

/-- Where a program runs. -/
structure Environment where
  /-- The current directory, if it is known. -/
  currentDirectory : Option Path
  /-- The configuration directory of the user, if it is known. -/
  configDirectory : Option Path
  deriving Repr

namespace Settings

/-- The name of settings files. -/
def fileName : Text := "asninja.toml"

/-- The files that are looked for, the most important one first. -/
def candidates (environment : Environment) : List Path :=
  (environment.currentDirectory.map (Path.join · fileName)).toList ++
    (environment.configDirectory.map fun dir => (dir.join "asninja").join fileName).toList

section

variable {m : Type → Type} [Monad m] [FileSystem m]

/-- Reads a settings file. -/
def readFile (path : Path) : m (Except SettingsError Settings) := do
  match ← FileSystem.readText path with
  | .error fault => return .error (.unreadable path fault)
  | .ok text =>
    match parse? text with
    | some settings => return .ok settings
    | none => return .error (.malformed path)

/-- The first of some paths that names a file. -/
def firstFile? : List Path → m (Option Path)
  | [] => return none
  | path :: paths => do if ← FileSystem.isFile path then return some path else firstFile? paths

/-- Loads the settings. -/
def load (environment : Environment) (explicit : Option Path) : m (Except SettingsError Settings) := do
  match explicit with
  | some path => readFile path
  | none =>
    match ← firstFile? (candidates environment) with
    | some path => readFile path
    | none => return .ok {}

end

end Settings

end CprojNinja
