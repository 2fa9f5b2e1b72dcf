import CprojNinja.Text.Basic

/-!
# Paths

Paths are texts with `/` between their components, and nothing normalises them: what the user or the project wrote is
what the build file and the messages show. The functions below take a path apart by its last separator or its last dot,
and put two paths together.

`dropParents` is the one rule with a corner of its own. It removes a leading `../` again and again, but it looks at the
two dots only and then drops three bytes, so that a name that merely begins with two dots loses a character too.
-/

namespace CprojNinja

/-- A path as it is written. -/
abbrev Path := Text

namespace Path

/-! ## Putting together -/

/-- The path of `name` seen from the directory `dir`. An absolute name stays as it is. -/
def join (dir name : Path) : Path :=
  if name.head? = some '/' then name
  else if dir = [] ∨ dir.getLast? = some '/' then dir ++ name
  else dir ++ "/" ++ name

/-- A relative name stands behind a separator, unless there is no directory. -/
theorem join_cases (dir : Path) {name : Path} (hname : name.head? ≠ some '/') :
    (dir = [] ∧ dir.join name = name) ∨
      ∃ start, (dir = start ∨ dir = start ++ ['/']) ∧ dir.join name = start ++ '/' :: name := by
  unfold join
  rw [if_neg hname]
  split
  · next hdir =>
    rcases hdir with rfl | hdir
    · exact Or.inl ⟨rfl, rfl⟩
    · obtain ⟨start, rfl⟩ := List.getLast?_eq_some_iff.1 hdir
      exact Or.inr ⟨start, Or.inr rfl, List.append_assoc start ['/'] name⟩
  · exact Or.inr ⟨dir, Or.inl rfl, List.append_assoc dir ['/'] name⟩

/-- `path` with `/` for every `\`. -/
def forwardSlashes (path : Path) : Path := path.map fun c => if c = '\\' then '/' else c

/-! ## Taking apart -/

/-- The directory and the base name: what stands before and after the last `/`. -/
def splitBase (path : Path) : Path × Text :=
  match Text.cutLast? (· = '/') path with
  | some (dir, _, base) => (dir, base)
  | none => ([], path)

/-- A base name before and from its last dot. A dot at the start of the name begins no extension. -/
def splitDot (base : Text) : Text × Text :=
  match Text.cutLast? (· = '.') base with
  | some ([], _, _) | none => (base, [])
  | some (stem, dot, extension) => (stem, dot :: extension)

/-- The path without its extension, and the extension with its dot. -/
def splitExtension (path : Path) : Path × Text :=
  match Text.cutLast? (· = '/') path with
  | some (dir, slash, base) => (dir ++ slash :: (splitDot base).1, (splitDot base).2)
  | none => splitDot path

/-- Nothing is lost when the extension of a base name is split off. -/
theorem splitDot_append (base : Text) : (splitDot base).1 ++ (splitDot base).2 = base := by
  unfold splitDot
  split
  · simp
  · simp
  · next h => exact (Text.eq_of_cutLast? h).symm

/-- Nothing is lost when the extension of a path is split off. -/
theorem splitExtension_append (path : Path) : (splitExtension path).1 ++ (splitExtension path).2 = path := by
  unfold splitExtension
  split
  · next dir slash base h =>
    rw [List.append_assoc, List.cons_append, splitDot_append]
    exact (Text.eq_of_cutLast? h).symm
  · exact splitDot_append path

/-- The components of a path: empty ones and those that name the same directory are left out, except for a dot at the
start of a relative path. -/
def components (path : Path) : List Text :=
  match Text.splitOn '/' path with
  | ['.'] :: rest => ['.'] :: rest.filter fun c => c ≠ [] ∧ c ≠ ['.']
  | parts => parts.filter fun c => c ≠ [] ∧ c ≠ ['.']

/-- Whether a path starts at the root. -/
def isAbsolute (path : Path) : Bool := path.head? = some '/'

/-- The base name of a file without its extension; a path that ends in a name of a directory (`.`, `..` or the root)
has none. -/
def stem? (path : Path) : Option Text :=
  match (components path).getLast? with
  | none | some ['.'] | some ['.', '.'] => none
  | some base => some (splitDot base).1

/-- All proper initial parts of a list, the longest one first. -/
def initialParts : List Text → List (List Text)
  | [] => []
  | c :: cs => (initialParts cs).map (c :: ·) ++ [[]]

/-- The path itself and the directories that it lies in, innermost first. The list of a relative path ends in the empty
path, that of an absolute one in the root. -/
def ancestors (path : Path) : List Path :=
  let root : Path := if isAbsolute path then "/" else []
  path :: (initialParts (components path)).map fun parts => root ++ Text.joinWith "/" parts

/-! ## Names derived from paths -/

/-- The path without the parent directories at its start: as long as it starts with two dots, three bytes are dropped.
A third character that takes more than one byte cannot be cut, and then nothing is left. -/
def dropParents : Path → Path
  | '.' :: '.' :: c :: rest => if c.utf8Size = 1 then dropParents rest else []
  | ['.', '.'] => []
  | path => path

/-- Parent directories are dropped from the start alone. -/
theorem dropParents_suffix (path : Path) : dropParents path <:+ path := by
  fun_induction dropParents path with
  | case1 c rest _ ih => exact ih.trans ⟨['.', '.', c], rfl⟩
  | case2 c rest => exact List.nil_suffix
  | case3 => exact List.nil_suffix
  | case4 path => exact List.suffix_rfl

/-- The name of an output directory: its last component as written, where `\` separates as `/` does. -/
def directoryName (path : Path) : Text :=
  let isSeparator (c : Char) : Bool := c = '/' || c = '\\'
  let path := Text.trimEnd isSeparator path
  match Text.cutLast? isSeparator path with
  | some (_, _, name) => name
  | none => path

end Path

end CprojNinja
