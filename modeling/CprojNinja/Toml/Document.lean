import CprojNinja.Toml.Statement

/-!
# Settings documents

The statements of a file fall into the assignments before the first header and one group for each header. Every group
fills the table that its header opens.
-/

namespace CprojNinja.Toml

/-- The assignments before the first header, and for each header its path with the assignments below it. -/
def groups : List Statement → List Assignment × List (List Text × List Assignment)
  | [] => ([], [])
  | .assignment a :: rest => (a :: (groups rest).1, (groups rest).2)
  | .header path :: rest => ([], (path, (groups rest).1) :: (groups rest).2)

/-- The entries of the root table after some statements. -/
def ofStatements? (statements : List Statement) : Option Entries := do
  let (own, sections) := groups statements
  let root ← Entries.assign? [] own
  sections.foldlM (fun entries (path, assignments) => entries.open? (·.assign? assignments) path) root

/-- The entries of the root table of a document. A byte order mark at its start is passed over. -/
def parse? (s : Text) : Option Entries := do
  let statements ← readStatements? (Text.withoutStart ['\uFEFF'] s)
  ofStatements? statements

namespace Value

/-- The text that a value is. -/
def text? : Value → Option Text
  | text content => some content
  | _ => none

/-- The entries of a value where a table is wanted. A date counts as a table with one entry: its normal form under a
reserved name. -/
def entries? : Value → Option Entries
  | table _ entries => some entries
  | date normal => some [("$__toml_private_datetime", .text normal)]
  | text _ => none

end Value

/-- The entries of a table, each value read by `f`. -/
def Entries.mapM? {α : Type} (entries : Entries) (f : Value → Option α) : Option (List (Text × α)) :=
  entries.mapM fun (key, value) => do return (key, ← f value)

end CprojNinja.Toml
