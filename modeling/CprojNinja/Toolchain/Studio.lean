import CprojNinja.Project.Basic
import CprojNinja.Toolchain.Basic
import CprojNinja.Toolchain.Registry

/-!
# Toolchains of the studio

A project names the toolchain that it was made for. The studio's own toolchains lie at fixed places below the directory
in which the studio is installed, which depend on its version and on the family. Other flavours are packages, each
registered with a directory of its own.

Either way one value of the registry is read, and the defects are reported in a fixed order: the name, the version, the
missing value, the family.
-/

namespace CprojNinja

/-- The versions of the studio whose layout is known. -/
inductive StudioVersion where
  /-- Version 6.2. -/
  | v62
  /-- Version 7.0. -/
  | v70
  deriving Repr, DecidableEq

namespace StudioVersion

/-- The version that a project states. -/
def ofText? (version : Text) : Option StudioVersion :=
  if version = "6.2" then some v62 else if version = "7.0" then some v70 else none

/-- The way from the directory of the studio to the programs of a family. -/
def programPath : StudioVersion → Family → List Text
  | v62, .arm => ["..", "Atmel Toolchain", "ARM GCC", "Native", "4.8.1437", "arm-gnu-toolchain", "bin"]
  | v62, .avr32 => ["..", "Atmel Toolchain", "AVR32 GCC", "Native", "3.4.1067", "avr32-gnu-toolchain", "bin"]
  | v62, .avr8 => ["..", "Atmel Toolchain", "AVR8 GCC", "Native", "3.4.1061", "avr8-gnu-toolchain", "bin"]
  | v70, .arm => ["toolchain", "arm", "arm-gnu-toolchain", "bin"]
  | v70, .avr32 => ["toolchain", "avr32", "avr32-gnu-toolchain", "bin"]
  | v70, .avr8 => ["toolchain", "avr8", "avr8-gnu-toolchain", "bin"]

end StudioVersion

/-- The mark of a family in the name of a toolchain. -/
def Family.nameMark : Family → Text
  | arm => "ARMGCC"
  | avr32 => "AVR32GCC"
  | avr8 => "AVR8GCC"

/-- The family whose mark occurs in the name of a toolchain. -/
def Family.ofName? (name : Text) : Option Family := all.find? fun f => Text.occursIn f.nameMark name

namespace ToolchainId

/-- The flavour of the toolchains that come with the studio. -/
def nativeFlavour : Text := "Native"

/-- The start of all keys of the registry that are about the studio. -/
def registryStart (id : ToolchainId) : Text := "Software\\Atmel\\AtmelStudio\\" ++ id.studioVersion

/-- The toolchain that comes with the studio. -/
def nativeToolchain (id : ToolchainId) (registry : Registry) : Except ToolchainError Toolchain := do
  let some family := Family.ofName? id.name | throw (.unsupportedToolchain id.name)
  let some version := StudioVersion.ofText? id.studioVersion | throw (.unsupportedStudio id.studioVersion)
  let some studio := registry.value? (id.registryStart ++ "_Config") "InstallDir"
    | throw (.studioNotFound id.studioVersion)
  return ⟨(version.programPath family).foldl Path.join studio, family⟩

/-- The toolchain of a package. -/
def packagedToolchain (id : ToolchainId) (registry : Registry) : Except ToolchainError Toolchain := do
  let key := id.registryStart ++ "\\ToolchainPackages\\" ++ id.name ++ "\\" ++ id.flavour
  let some path := registry.value? key "BasePath" | throw (.packageNotFound id.name id.flavour)
  Toolchain.ofPath path

/-- The toolchain that a project asks for. -/
def toolchain (id : ToolchainId) (registry : Registry) : Except ToolchainError Toolchain :=
  if id.flavour = nativeFlavour then id.nativeToolchain registry else id.packagedToolchain registry

end ToolchainId

end CprojNinja
