import CprojNinja.Disk.Basic
import CprojNinja.Report

/-!
# A model of a disk

A disk is a list of entries, each at a location: the names on the way from the root. The root is always there and the
entry at every other location is a file, a directory or nothing. Links and rights are not modelled, but any operation
may meet a mishap: then it fails although nothing in the entries asks for it.

A path is walked name by name. Every name but the last must lead to a directory, and so must the last one if a slash
follows it. The faults are those of a system of the Unix family.
-/

namespace CprojNinja

/-- What a file holds. -/
inductive Content where
  /-- A text. -/
  | text (content : Text)
  /-- Bytes that are not text in UTF-8. -/
  | binary (bytes : List UInt8)
  deriving Repr, DecidableEq

/-- What is at a location. -/
inductive Entry where
  /-- A file. -/
  | file (content : Content)
  /-- A directory. -/
  | directory
  deriving Repr, DecidableEq

/-- A location: the names on the way from the root. -/
abbrev Location := List Text

/-- Something that makes an operation fail from outside: a full or broken medium, a missing right. -/
structure Mishap where
  /-- What the system says. -/
  fault : Fault
  /-- What a file holds whose writing broke off; nothing if the file was not even opened. -/
  left : Option Content := none
  deriving Repr, DecidableEq

/-- A disk, seen from a current directory. -/
structure Disk where
  /-- The current directory. -/
  current : Location
  /-- The files and directories other than the root. -/
  entries : List (Location × Entry)
  /-- What the operations to come meet, one after the other; those after the last entry meet nothing. -/
  mishaps : List (Option Mishap) := []
  deriving Repr, DecidableEq

namespace Disk

/-! ## Entries -/

/-- What is at a location. -/
def at? (d : Disk) (location : Location) : Option Entry :=
  if location = [] then some .directory else d.entries.lookup location

/-- The disk with an entry at a location, in place of what was there. -/
def put (d : Disk) (location : Location) (entry : Entry) : Disk :=
  { d with entries := (location, entry) :: d.entries.filter (·.1 ≠ location) }

/-- The disk without the entry at a location. -/
def erase (d : Disk) (location : Location) : Disk := { d with entries := d.entries.filter (·.1 ≠ location) }

theorem lookup_filter_ne {entries : List (Location × Entry)} {removed location : Location} :
    (entries.filter (·.1 ≠ removed)).lookup location =
      if location = removed then none else entries.lookup location := by
  induction entries with
  | nil => simp
  | cons e entries ih => grind

/-- Putting an entry changes one location. -/
theorem at?_put {d : Disk} {location other : Location} {entry : Entry} (h : location ≠ []) :
    (d.put location entry).at? other = if other = location then some entry else d.at? other := by
  unfold at? put
  by_cases ho : other = []
  · subst ho; simp [Ne.symm h]
  · by_cases hl : other = location
    · subst hl; simp [ho]
    · simp only [if_neg ho, if_neg hl, List.lookup_cons, beq_eq_false_iff_ne.2 hl, lookup_filter_ne]

/-- Erasing an entry changes one location. -/
theorem at?_erase {d : Disk} {location other : Location} (h : location ≠ []) :
    (d.erase location).at? other = if other = location then none else d.at? other := by
  unfold at? erase
  by_cases ho : other = []
  · subst ho; simp [Ne.symm h]
  · simp only [if_neg ho, lookup_filter_ne]

/-! ## Walking a path -/

/-- The greatest width of a name in bytes. -/
def nameLimit : Nat := 255

/-- The greatest width of a path in bytes. -/
def pathLimit : Nat := 4095

/-- One step of a walk. -/
def step (d : Disk) (location : Location) (name : Text) : Except Fault Location :=
  match d.at? location with
  | none => .error .notFound
  | some (.file _) => .error .notDirectory
  | some .directory =>
    if Text.byteWidth name > nameLimit then .error .nameTooLong
    else if name = [] ∨ name = "." then .ok location
    else if name = ".." then .ok location.dropLast
    else .ok (location ++ [name])

/-- Refuses a path before any walk, for what it holds or for its width as it is given. -/
def checkPath (path : Path) : Except Fault Unit :=
  if '\x00' ∈ path then .error .nullInName
  else if path = [] then .error .notFound
  else if Text.byteWidth path > pathLimit then .error .nameTooLong
  else .ok ()

/-- Where the names of a path lead, from the root or from the current directory. -/
def walk (d : Disk) (path : Path) : Except Fault Location :=
  (Text.splitOn '/' path).foldlM d.step (if path.isAbsolute then [] else d.current)

/-- The location that a path names, whether or not anything is there. -/
def locate (d : Disk) (path : Path) : Except Fault Location := do
  checkPath path
  d.walk path

/-! ## Operations -/

/-- The text of a file. -/
def readText (d : Disk) (path : Path) : Except Fault Text := do
  match d.at? (← d.locate path) with
  | none => throw .notFound
  | some .directory => throw .isDirectory
  | some (.file (.binary _)) => throw .notText
  | some (.file (.text content)) => return content

/-- Whether a path names a file. -/
def isFile (d : Disk) (path : Path) : Bool :=
  match d.locate path with
  | .ok location => (d.at? location).any (· ≠ .directory)
  | .error _ => false

/-- Whether a path names a directory. -/
def isDirectory (d : Disk) (path : Path) : Bool :=
  match d.locate path with
  | .ok location => d.at? location = some .directory
  | .error _ => false

/-- The disk with a new directory. Slashes at the end of its path do not count in the walk, though they do in the width
of the path. -/
def makeDirectory (d : Disk) (path : Path) : Except Fault Disk := do
  checkPath path
  let trimmed := Text.trimEnd (· = '/') path
  let location ← d.walk (if trimmed = [] then path else trimmed)
  match d.at? location with
  | some _ => throw .alreadyExists
  | none => return d.put location .directory

/-- The disk with a file that holds something. -/
def write (d : Disk) (path : Path) (content : Content) : Except Fault Disk := do
  let location ← d.locate path
  match d.at? location with
  | some .directory => throw .isDirectory
  | _ => return d.put location (.file content)

/-- The disk with a file moved. Directories are not moved. -/
def rename (d : Disk) (source target : Path) : Except Fault Disk := do
  let source ← d.locate source
  let target ← d.locate target
  match d.at? source, d.at? target with
  | none, _ => throw .notFound
  | some .directory, _ | _, some .directory => throw .isDirectory
  | some (.file content), _ => return (d.erase source).put target (.file content)

/-- The disk without a file. -/
def remove (d : Disk) (path : Path) : Except Fault Disk := do
  let location ← d.locate path
  match d.at? location with
  | none => throw .notFound
  | some .directory => throw .isDirectory
  | some (.file _) => return d.erase location

/-! ## The file system of a disk -/

/-- What the next operation meets, and the disk for the operations after it. -/
def nextMishap (d : Disk) : Option Mishap × Disk := (d.mishaps.head?.join, { d with mishaps := d.mishaps.tail })

/-- Looks at the disk that is the state. -/
def look {α : Type} (answer : Disk → α) (failed : Fault → α) : StateM Disk α := fun d =>
  match d.nextMishap with
  | (some mishap, d) => (failed mishap.fault, d)
  | (none, d) => (answer d, d)

/-- Changes the disk that is the state. A fault leaves it as it is; what a mishap does to it is up to the operation. -/
def change (f : Disk → Except Fault Disk) (spoil : Mishap → Disk → Except Fault Disk := fun _ => .ok) :
    StateM Disk (Except Fault Unit) := fun d =>
  match d.nextMishap with
  | (some mishap, d) => (.error mishap.fault, (spoil mishap d).toOption.getD d)
  | (none, d) =>
    match f d with
    | .ok d' => (.ok (), d')
    | .error fault => (.error fault, d)

/-- The disk after writing to a file broke off. -/
def breakOff (path : Path) (mishap : Mishap) (d : Disk) : Except Fault Disk :=
  match mishap.left with
  | some content => d.write path content
  | none => .ok d

instance : FileSystem (StateM Disk) where
  readText path := look (·.readText path) .error
  isFile path := look (·.isFile path) fun _ => false
  isDirectory path := look (·.isDirectory path) fun _ => false
  makeDirectory path := change (·.makeDirectory path)
  writeText path text := change (·.write path (.text text)) (breakOff path)
  rename source target := change (·.rename source target)
  remove path := change (·.remove path)

/-- Warnings are told elsewhere: they leave no trace on a disk. -/
instance : Console (StateM Disk) where
  warn _ := return ()

end Disk

end CprojNinja
