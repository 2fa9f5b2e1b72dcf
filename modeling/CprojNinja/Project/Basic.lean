import CprojNinja.Disk.Fault
import CprojNinja.Project.Reference
import CprojNinja.Text.Quoted

/-!
# Projects

A project says what is built (a program or an archive, in C or C++), from which sources and referenced libraries, with
which toolchain, and in which configurations. A configuration is a list of properties, each with a text and a list of
values, in the order of the document: the first property of a name is the one that counts.

All this is fixed when the project is loaded. The one thing that changes later is which configuration is selected.
-/

namespace CprojNinja

/-- The language of a project. A C++ project may also have C sources. -/
inductive Language where
  /-- C alone. -/
  | c
  /-- C++ and C. -/
  | cpp
  deriving Repr, DecidableEq

namespace Language

/-- The name of the elements that hold the properties of a configuration. -/
def settingsElement : Language → Text
  | c => "ArmGcc"
  | cpp => "ArmGccCpp"

/-- The start of the names of the linker and archiver properties. -/
def keyStart : Language → Text
  | c => "armgcc"
  | cpp => "armgcccpp"

end Language

/-- What a project builds. -/
inductive OutputKind where
  /-- A linked program. -/
  | executable
  /-- A static library. -/
  | archive
  deriving Repr, DecidableEq

/-- The toolchain that a project asks for. -/
structure ToolchainId where
  /-- The version of the studio that wrote the project. -/
  studioVersion : Text
  /-- The name of the toolchain. -/
  name : Text
  /-- The flavour of the toolchain: the studio's own or that of a package. -/
  flavour : Text
  deriving Repr, DecidableEq

/-- A property of a configuration. -/
structure Property where
  /-- Its name. -/
  name : Text
  /-- Its text, empty if it has none. -/
  text : Text
  /-- The values listed in it. -/
  values : List Text
  deriving Repr, DecidableEq

/-- A configuration of a project. -/
structure Configuration where
  /-- Its name. -/
  name : Text
  /-- Its properties in the order of the document. -/
  properties : List Property
  deriving Repr, DecidableEq

/-- A loaded project. -/
structure Project where
  /-- Its language. -/
  language : Language
  /-- What it builds. -/
  outputKind : OutputKind
  /-- The name of the output file, without its extension. -/
  outputName : Text
  /-- The extension of the output file, with its dot. -/
  outputExtension : Text
  /-- The toolchain that it asks for. -/
  toolchain : ToolchainId
  /-- The libraries that it links against. -/
  references : List Reference
  /-- The files that it lists for compilation, with `/` between components. -/
  sources : List Path
  /-- Its configurations in the order of the document. -/
  configurations : List Configuration
  /-- The configuration that is selected, if one is. -/
  selected : Option Configuration := none
  deriving Repr, DecidableEq

namespace Project

/-- Whether a project may have C++ sources. -/
def isCpp (p : Project) : Bool := p.language = .cpp

/-- Whether a project builds a static library. -/
def isArchive (p : Project) : Bool := p.outputKind = .archive

/-- The name of the output file. -/
def output (p : Project) : Text := p.outputName ++ p.outputExtension

end Project

/-- Why a project was not loaded. -/
inductive LoadError where
  /-- The file was not read. -/
  | unreadable (fault : Fault)
  /-- The text is no well-formed document. -/
  | malformed
  /-- The document follows another schema. -/
  | unsupportedSchema (version : Text)
  /-- An element that every project has is missing. -/
  | missingElement (name : Text)
  /-- The name of a referenced library is decorated. -/
  | decoratedLibrary (name : Text)
  deriving Repr, DecidableEq

/-- How an error of loading is reported. What is wrong with a document that is not well formed is not said. -/
def LoadError.message : LoadError → Text
  | unreadable fault => "Error reading project file: " ++ fault.message
  | malformed => "Error parsing project file"
  | unsupportedSchema version => "Unsupported project schema version " ++ Text.quoted version
  | missingElement name => "Project file has no <" ++ name ++ "> element"
  | decoratedLibrary name =>
    "Referenced library name \"" ++ name ++ "\" must not carry the \"lib\" prefix or \".a\" suffix"

end CprojNinja
