import CprojNinja.Project.Basic
import CprojNinja.Text.Blank
import CprojNinja.Xml.Document

/-!
# Reading projects

A project document is a tree of elements. Facts about the project as a whole stand in property groups anywhere in the
document, files and references in item groups anywhere in it, and the configurations in those property groups directly
below the root whose condition compares the configuration with a name.

The facts are looked up in a fixed order, so that of several defects the same one is always reported.
-/

namespace CprojNinja.Project

open Xml (Node)

/-- The version of the schema that is understood. -/
def supportedSchema : Text := "2.0"

/-- What stands in an output name for the name of the project. -/
def nameVariable : Text := "$(MSBuildProjectName)"

/-! ## Facts and items -/

/-- The members of all property groups of a document. -/
def propertyElements (root : Node) : List Node := (root.allNamed "PropertyGroup").flatMap Node.children

/-- The text of the first member of a property group that has this name. -/
def property? (root : Node) (name : Text) : Option Text :=
  ((propertyElements root).find? (Node.isNamed name)).map Node.textOrEmpty

/-- The text of a fact that every project states. -/
def requiredProperty (root : Node) (name : Text) : Except LoadError Text :=
  match property? root name with
  | some text => .ok text
  | none => .error (.missingElement name)

/-- The paths that the items of one kind include. -/
def includedPaths (root : Node) (kind : Text) : List Path :=
  (((root.allNamed "ItemGroup").flatMap (Node.childrenNamed kind)).filterMap (Node.attribute? "Include")).map
    Path.forwardSlashes

/-- The reference to the project that a path names. -/
def referenceOfPath (path : Path) : Except LoadError Reference :=
  let (directory, file) := Path.splitBase path
  let name := (Path.splitExtension file).1
  match Reference.ofName? directory name with
  | some reference => .ok reference
  | none => .error (.decoratedLibrary name)

/-! ## Configurations -/

/-- The name in a condition such as `'$(Configuration)' == 'Debug'`. -/
def configurationName? (condition : Text) : Option Text := do
  let rest ← Text.dropStart? "'$(Configuration)' == '" (Text.trim condition)
  let name ← Text.dropEnd? "'" rest
  if name.contains '\'' then none else some name

/-- The property that an element stands for. -/
def propertyOfElement (n : Node) : Option Property :=
  n.name?.map fun name =>
    { name
      text := n.textOrEmpty
      values := ((n.childrenNamed "ListValues").flatMap (Node.childrenNamed "Value")).map Node.textOrEmpty }

/-- The properties in a property group. -/
def propertiesOfGroup (language : Language) (group : Node) : List Property :=
  ((group.allNamed language.settingsElement).flatMap Node.children).filterMap propertyOfElement

/-- The configuration that a property group describes, if its condition names one. -/
def configurationOfGroup? (language : Language) (group : Node) : Option Configuration := do
  let condition ← group.attribute? "Condition"
  let name ← configurationName? condition
  return ⟨name, propertiesOfGroup language group⟩

/-! ## Projects -/

/-- The project that a document describes; `output` is the name of the project in the name of its output. -/
def ofDocument (output : Text) (root : Node) : Except LoadError Project := do
  let schema := (property? root "SchemaVersion").getD []
  if schema ≠ supportedSchema then throw (.unsupportedSchema schema)
  let language : Language := if (← requiredProperty root "Language") = "CPP" then .cpp else .c
  let outputKind : OutputKind :=
    if (← requiredProperty root "OutputType") = "StaticLibrary" then .archive else .executable
  let outputName ← requiredProperty root "OutputFileName"
  let outputExtension ← requiredProperty root "OutputFileExtension"
  let references ← (includedPaths root "ProjectReference").mapM referenceOfPath
  return {
    language, outputKind, outputExtension, references
    outputName := Text.replaceAll nameVariable output outputName
    toolchain := {
      studioVersion := (property? root "ProjectVersion").getD []
      name := (property? root "ToolchainName").getD []
      flavour := (property? root "ToolchainFlavour").getD [] }
    sources := includedPaths root "Compile"
    configurations := (root.childrenNamed "PropertyGroup").filterMap (configurationOfGroup? language) }

/-- Reads a project. -/
def read (output source : Text) : Except LoadError Project :=
  match Xml.parse? source with
  | some root => ofDocument output root
  | none => .error .malformed

end CprojNinja.Project
