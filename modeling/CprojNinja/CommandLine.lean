import CprojNinja.Conversion
import CprojNinja.Settings.Load

/-!
# The command line

The program takes options only, each with a value and each at most once: `--name value` or `--name=value`. A value in an
argument of its own must not begin with a dash, unless it is a dash. The arguments are read from left to right and the
first defect, or the first request for the version or for help, decides.
-/

namespace CprojNinja

/-- An option of the command line. -/
inductive Parameter where
  /-- The project file. -/
  | project
  /-- The configuration. -/
  | configuration
  /-- The directory of the build file. -/
  | outpath
  /-- The name of the output. -/
  | output
  /-- Flags for compilers and linker. -/
  | flags
  /-- Symbols to define. -/
  | added
  /-- Symbols not to define. -/
  | removed
  /-- The directory of the toolchain. -/
  | toolchain
  /-- The settings file. -/
  | settings
  deriving Repr, DecidableEq

namespace Parameter

/-- All options. -/
def all : List Parameter :=
  [project, configuration, outpath, output, flags, added, removed, toolchain, settings]

/-- The name of an option, without its dashes. -/
def name : Parameter → Text
  | project => "prj"
  | configuration => "config"
  | outpath => "outpath"
  | output => "output"
  | flags => "flags"
  | added => "add_defs"
  | removed => "del_defs"
  | toolchain => "gcc_toolchain"
  | settings => "settings"

/-- What an option is for. -/
def purpose : Parameter → Text
  | project => "Atmel Studio project file"
  | configuration => "Configuration name [default: Debug]"
  | outpath => "Output path (if absent, same as configuration name)"
  | output => "Output name (if absent, same as the project file name)"
  | flags => "Additional compiler and linker flags, separated by spaces"
  | added => "Additional defines, separated by spaces"
  | removed => "Defines to remove, separated by spaces"
  | toolchain => "Path to the GCC toolchain bin directory"
  | settings => "Settings file (default: ./asninja.toml, then the user config directory)"

/-- How an option is used. -/
def usage (p : Parameter) : Text := "--" ++ p.name ++ " <value>"

/-- Whether the value of an option is a path. Paths must not be empty. -/
def isPath : Parameter → Bool
  | project | outpath | toolchain | settings => true
  | _ => false

/-- The option of this name. -/
def ofName? (name : Text) : Option Parameter := all.find? (·.name = name)

end Parameter

/-- How the program is used. -/
def usage : Text := Text.joinWith " " ("usage: asninja" :: Parameter.all.map Parameter.usage)

/-- What the program is for and how it is used. -/
def help : Text :=
  Text.joinWith "\n" ("Converts an Atmel Studio project into a ninja build file" :: usage ::
    Parameter.all.map fun p => "  " ++ p.usage ++ "  " ++ p.purpose)

/-! ## Reading arguments -/

/-- The options that were given, with their values. -/
abbrev Arguments := List (Parameter × Text)

/-- What the user asks for. -/
inductive Request where
  /-- The version of the program. -/
  | version
  /-- Help. -/
  | help
  /-- A conversion. -/
  | convert (options : Options) (settings : Option Path)
  /-- The arguments make no sense. -/
  | misuse
  deriving Repr

namespace Arguments

/-- The arguments with one more option, which must be new and have a proper value. -/
def add? (given : Arguments) (parameter : Parameter) (value : Text) : Option Arguments :=
  if (given.lookup parameter).isSome ∨ parameter.isPath ∧ value = [] then none
  else some ((parameter, value) :: given)

/-- The words of a list in one argument. They are separated by single blanks, so some may be empty. -/
def splitList (list : Text) : List Text := if list = [] then [] else Text.splitOn ' ' list

/-- The request that some options make. Without a project there is nothing to convert. -/
def request (given : Arguments) : Request :=
  match given.lookup .project with
  | none => .misuse
  | some project =>
    let list (parameter : Parameter) : List Text := splitList ((given.lookup parameter).getD [])
    let options : Options := {
      project
      configuration := (given.lookup .configuration).getD []
      outpath := given.lookup .outpath
      output := given.lookup .output
      caller := { flags := list .flags, added := list .added, removed := list .removed }
      toolchain := given.lookup .toolchain }
    .convert options (given.lookup .settings)

/-- Whether an argument cannot be the value of the option before it. -/
def looksLikeOption (argument : Text) : Bool := argument.head? = some '-' && argument ≠ ['-']

/-- Reads arguments after those that were given already. -/
def read (given : Arguments) : List Text → Request
  | [] => given.request
  | argument :: rest =>
    if argument = "--version" then .version
    else if argument = "--help" then .help
    else if argument = "--" then if rest.isEmpty then given.request else .misuse
    else
      match Text.dropStart? "--" argument with
      | none =>
        if Text.startsWith "-V" argument then .version
        else if Text.startsWith "-h" argument then .help
        else .misuse
      | some long =>
        match Text.cutAt? "=" long with
        | some (name, value) =>
          match (Parameter.ofName? name).bind (given.add? · value) with
          | some given => read given rest
          | none => .misuse
        | none =>
          match rest with
          | [] => .misuse
          | value :: rest =>
            if looksLikeOption value then .misuse
            else
              match (Parameter.ofName? long).bind (given.add? · value) with
              | some given => read given rest
              | none => .misuse

end Arguments

/-! ## Running -/

/-- How a run of the program ended. -/
inductive Outcome where
  /-- It told its version. -/
  | version
  /-- It gave help. -/
  | help
  /-- It did not understand its arguments. -/
  | misuse
  /-- It wrote a build file. -/
  | generated (path : Path)
  /-- It did not load the settings. -/
  | settingsFailed (e : SettingsError)
  /-- It did not convert the project. -/
  | conversionFailed (e : ConversionError)
  deriving Repr

namespace Outcome

/-- The exit code of a run. -/
def exitCode : Outcome → Nat
  | version | help | generated _ => 0
  | settingsFailed _ => 1
  | misuse => 2
  | conversionFailed e => if e.violation?.isSome then 101 else 1

/-- The line that a run prints, if it prints one. -/
def line? : Outcome → Option Text
  | version => some "asninja 0.2.0"
  | help => some CprojNinja.help
  | misuse => none
  | generated path => some ("Generated " ++ path)
  | settingsFailed e => some ("Error: " ++ e.message)
  | conversionFailed e => if e.violation?.isSome then none else some ("Error: " ++ e.report)

end Outcome

/-- Runs the program with some arguments. -/
def runProgram {m : Type → Type} [Monad m] [FileSystem m] [Console m] (environment : Environment)
    (arguments : List Text) : m Outcome := do
  match Arguments.read [] arguments with
  | .version => return .version
  | .help => return .help
  | .misuse => return .misuse
  | .convert options settingsPath =>
    match ← Settings.load environment settingsPath with
    | .error e => return .settingsFailed e
    | .ok settings =>
      match ← options.convert settings with
      | .error e => return .conversionFailed e
      | .ok path => return .generated path

end CprojNinja
