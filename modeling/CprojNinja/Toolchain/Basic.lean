import CprojNinja.Path

/-!
# Toolchains

A toolchain is a directory of programs for one family of processors. The family is known from the directory: its path
contains a mark, and the first mark in the order of the families decides. The names of the programs begin with a prefix
of the family.
-/

namespace CprojNinja

/-- A family of processors. -/
inductive Family where
  /-- Arm processors. -/
  | arm
  /-- Processors of the AVR32 line. -/
  | avr32
  /-- Processors of the 8-bit AVR line. -/
  | avr8
  deriving Repr, DecidableEq

namespace Family

/-- The families in the order in which their marks are looked for. -/
def all : List Family := [arm, avr32, avr8]

/-- The name of a family. -/
def name : Family → Text
  | arm => "arm"
  | avr32 => "avr32"
  | avr8 => "avr8"

/-- The start of the names of its programs. -/
def programStart : Family → Text
  | arm => "arm-none-eabi"
  | avr32 => "avr32"
  | avr8 => "avr8"

/-- The mark of a family in a path. -/
def pathMark (f : Family) : Text := f.name ++ "-"

/-- The family whose mark occurs in a path. -/
def ofPath? (path : Path) : Option Family := all.find? fun f => Text.occursIn f.pathMark path

end Family

/-- Why no toolchain was found. -/
inductive ToolchainError where
  /-- The name or the path of the toolchain tells no family. -/
  | unsupportedToolchain (name : Text)
  /-- The studio that wrote the project is not known. -/
  | unsupportedStudio (version : Text)
  /-- It is not known where the studio is installed. -/
  | studioNotFound (version : Text)
  /-- It is not known where a toolchain package is installed. -/
  | packageNotFound (name flavour : Text)
  deriving Repr, DecidableEq

/-- How an error about toolchains is reported. Every message tells the way out. -/
def ToolchainError.message (e : ToolchainError) : Text :=
  let cause : Text := match e with
    | unsupportedToolchain name => "Unsupported toolchain " ++ name
    | unsupportedStudio version => "Unsupported project version " ++ version
    | studioNotFound version => "Path to Atmel Studio " ++ version ++ " not detected"
    | packageNotFound name flavour =>
      "Path to non-native toolchain flavour " ++ flavour ++ " of " ++ name ++ " not detected"
  cause ++ ". You can set toolchain explicitly with --gcc_toolchain"

/-- The programs that a build calls. -/
structure Executables where
  /-- The C compiler. -/
  cc : Text
  /-- The C++ compiler. -/
  cxx : Text
  /-- The archiver. -/
  ar : Text
  /-- The compiler that links programs. -/
  link : Text
  deriving Repr, DecidableEq

/-- A toolchain. -/
structure Toolchain where
  /-- The directory of its programs. -/
  directory : Path
  /-- The family that it is for. -/
  family : Family
  deriving Repr, DecidableEq

namespace Toolchain

/-- The toolchain in a directory. -/
def ofPath (path : Path) : Except ToolchainError Toolchain :=
  match Family.ofPath? path with
  | some family => .ok ⟨path, family⟩
  | none => .error (.unsupportedToolchain path)

/-- The path of a program. -/
def program (t : Toolchain) (name : Text) : Path := t.directory.join (t.family.programStart ++ "-" ++ name)

/-- The C compiler. -/
def cc (t : Toolchain) : Path := t.program "gcc"

/-- The C++ compiler. -/
def cxx (t : Toolchain) : Path := t.program "g++"

/-- The archiver. -/
def ar (t : Toolchain) : Path := t.program "ar"

/-- The programs for a project. What is written in C++ is linked by the C++ compiler. -/
def executables (t : Toolchain) (isCpp : Bool) : Executables :=
  { cc := t.cc, cxx := t.cxx, ar := t.ar, link := if isCpp then t.cxx else t.cc }

end Toolchain

end CprojNinja
