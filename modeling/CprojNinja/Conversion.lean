import CprojNinja.Disk.Basic
import CprojNinja.Graph.Basic
import CprojNinja.Project.Reader
import CprojNinja.Settings.Basic
import CprojNinja.Toolchain.Studio

/-!
# Conversions

A conversion reads a project file and writes a build file. Between the two nothing depends on the disk: the text of the
build file is a function of the text of the project, the options and the settings. Only when that text is known does the
conversion touch the disk, so a conversion that fails before leaves everything as it was. Its warnings are told in
either case.
-/

namespace CprojNinja

/-- What is asked of a conversion. -/
structure Options where
  /-- The project file. -/
  project : Path
  /-- The name of the configuration, empty for the usual one. -/
  configuration : Text := []
  /-- The directory of the build file, if it is not named after the configuration. -/
  outpath : Option Path := none
  /-- The name of the output, if it is not named after the project file. -/
  output : Option Text := none
  /-- Flags of the caller. -/
  caller : CallerFlags := {}
  /-- The directory of the toolchain, if the caller names one. -/
  toolchain : Option Path := none
  deriving Repr

namespace Options

/-- The usual configuration. -/
def usualConfiguration : Text := "Debug"

/-- The name of the configuration. -/
def configurationName (o : Options) : Text := if o.configuration = [] then usualConfiguration else o.configuration

/-- The directory of the build file. -/
def buildDirectory (o : Options) : Path := o.outpath.getD o.configurationName

/-- The build file. -/
def buildFile (o : Options) : Path := o.buildDirectory.join buildFileName

/-- The name of the build directory, which the projects that this one refers to are supposed to share. -/
def buildDirectoryName (o : Options) : Text := Path.directoryName o.buildDirectory

/-- The name of the output. -/
def outputName (o : Options) : Text := o.output.getD ((Path.stem? o.project).getD [])

end Options

/-- Why a conversion failed. -/
inductive ConversionError where
  /-- The project was not loaded. -/
  | load (project : Path) (cause : LoadError)
  /-- The project has no configuration of this name. -/
  | undefinedConfiguration (name : Text)
  /-- No toolchain was found. -/
  | toolchain (cause : ToolchainError)
  /-- The project has no build graph. -/
  | graph (cause : GraphError)
  /-- The flags were not resolved. -/
  | violation (v : Violation)
  /-- The directory of the build file was not made. -/
  | directory (path : Path) (fault : Fault)
  /-- The build file was not written. -/
  | write (path : Path) (fault : Fault)
  deriving Repr, DecidableEq

namespace ConversionError

/-- The violation of a contract that stopped a conversion, if one did. -/
def violation? : ConversionError → Option Violation
  | violation v | graph (.violation v) => some v
  | _ => none

/-- What failed. -/
def message : ConversionError → Text
  | load project _ => "Error loading " ++ project
  | undefinedConfiguration name => "Undefined config in project: " ++ name
  | toolchain cause => cause.message
  | graph cause => cause.message
  | violation v => v.message
  | directory path fault => "Error creating directory " ++ path ++ ": " ++ fault.message
  | write path fault => "Error writing " ++ path ++ ": " ++ fault.message

/-- What caused the failure, outermost first, if the message does not say it. -/
def causes : ConversionError → List Text
  | load _ (.unreadable fault) => [(LoadError.unreadable fault).message, fault.message]
  | load _ cause => [cause.message]
  | _ => []

/-- The full report of a failure. -/
def report (e : ConversionError) : Text := Text.joinWith ": " (e.message :: e.causes)

end ConversionError

/-- The toolchain for a project: the one that the caller names, or else that of the settings, or else the one that the
project asks for. -/
def resolveToolchain (p : Project) (explicit : Option Path) (settings : Settings) : Except ToolchainError Toolchain :=
  match explicit.or settings.toolchain with
  | some path => Toolchain.ofPath path
  | none => p.toolchain.toolchain [settings.registry, []]

namespace Options

/-- The build file of a loaded project, with the warnings on the way to it. -/
def reportedGraph (o : Options) (settings : Settings) (p : Project) : Reported ConversionError Ninja.File :=
  let p := p.select o.configurationName
  if p.selected.isNone then .fail (.undefinedConfiguration o.configurationName)
  else do
    let flags ← (p.resolveFlags o.caller o.buildDirectoryName).mapError ConversionError.violation
    let toolchain ← (resolveToolchain p o.toolchain settings).mapError ConversionError.toolchain
    (p.reportedGraph flags (toolchain.executables p.isCpp) o.buildDirectoryName).mapError .graph

/-- The text of the build file for a project file of some text, with the warnings on the way to it. -/
def reportedText (o : Options) (settings : Settings) (source : Text) : Reported ConversionError Text := do
  let p ← (Project.read o.outputName source).mapError (ConversionError.load o.project)
  return (← o.reportedGraph settings p).text

/-- The build file of a loaded project. -/
def buildGraph (o : Options) (settings : Settings) (p : Project) : Except ConversionError Ninja.File :=
  (o.reportedGraph settings p).outcome

/-- The text of the build file for a project file of some text. -/
def buildText (o : Options) (settings : Settings) (source : Text) : Except ConversionError Text :=
  (o.reportedText settings source).outcome

theorem buildGraph_eq (o : Options) (settings : Settings) (p : Project) : o.buildGraph settings p =
    let p := p.select o.configurationName
    if p.selected.isNone then .error (.undefinedConfiguration o.configurationName)
    else
      (p.resolveFlags o.caller o.buildDirectoryName).mapError .violation >>= fun flags =>
        (resolveToolchain p o.toolchain settings).mapError .toolchain >>= fun toolchain =>
          (p.graph flags (toolchain.executables p.isCpp) o.buildDirectoryName).mapError .graph := by
  unfold buildGraph reportedGraph Project.graph
  dsimp only
  split
  · rw [Reported.outcome_fail]
  · simp only [Reported.outcome_bind, Reported.outcome_lift, Reported.outcome_mapError]

theorem buildText_eq (o : Options) (settings : Settings) (source : Text) : o.buildText settings source =
    (Project.read o.outputName source).mapError (.load o.project) >>= fun p =>
      o.buildGraph settings p >>= fun f => .ok f.text := by
  unfold buildText buildGraph reportedText
  simp only [Reported.outcome_bind, Reported.outcome_lift, Reported.outcome_pure]

variable {m : Type → Type} [Monad m] [FileSystem m]

/-- Puts a text into the build file, whose directory is made if it is missing. -/
def writeBuildFile (o : Options) (text : Text) : m (Except ConversionError Path) := do
  match ← FileSystem.makeDirectories o.buildDirectory with
  | .error fault => return .error (.directory o.buildDirectory fault)
  | .ok () =>
    match ← FileSystem.replaceText o.buildFile text with
    | .error fault => return .error (.write o.buildFile fault)
    | .ok () => return .ok o.buildFile

/-- Converts a project; the answer is the path of the build file. -/
def convert [Console m] (o : Options) (settings : Settings) : m (Except ConversionError Path) := do
  match ← FileSystem.readText o.project with
  | .error fault => return .error (.load o.project (.unreadable fault))
  | .ok source =>
    let reported := o.reportedText settings source
    reported.warnings.forM Console.warn
    match reported.outcome with
    | .error e => return .error e
    | .ok text => o.writeBuildFile text

end Options

end CprojNinja
