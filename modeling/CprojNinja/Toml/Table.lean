import CprojNinja.Text.Basic

/-!
# Tables of settings files

Settings files are in TOML 1.0. Of its values only texts and tables have a meaning here, and dates, because where a
table is wanted a date counts as one. All other kinds of values are wrong wherever they stand, so they are not even
read.

What a table may still take in depends on how it came into being. Dotted keys extend the tables that dotted keys have
made, and they may pass through a table that a longer header implied. A header may pass through every table that is not
inline, but it opens a table only if it is new or implied.
-/

namespace CprojNinja.Toml

/-- How a table came into being. -/
inductive Origin where
  /-- By a header of its own. -/
  | header
  /-- By the header of a table inside it. -/
  | implied
  /-- By a dotted key. -/
  | dotted
  /-- Written out as a value. -/
  | inline
  deriving Repr, DecidableEq

/-- A value. -/
inductive Value where
  /-- A text. -/
  | text (content : Text)
  /-- A date, a time or both, in normal form. -/
  | date (normal : Text)
  /-- A table: its keys with their values, each key once. -/
  | table (origin : Origin) (entries : List (Text × Value))
  deriving Repr

/-- The keys of a table with their values. -/
abbrev Entries := List (Text × Value)

namespace Entries

/-- The entries with another value for `key`. -/
def replace (entries : Entries) (key : Text) (value : Value) : Entries :=
  entries.map fun entry => if entry.1 = key then (key, value) else entry

/-- The entries with one more, whose key must be new. -/
def add? (entries : Entries) (key : Text) (value : Value) : Option Entries :=
  match entries.lookup key with
  | none => some (entries ++ [(key, value)])
  | some _ => none

/-- The entries with a value under a dotted key: the tables on the way, then the key in the innermost one. -/
def addDotted? (entries : Entries) : (way : List Text) → (key : Text) → Value → Option Entries
  | [], key, value => entries.add? key value
  | step :: way, key, value =>
    match entries.lookup step with
    | none => do
      let inner ← addDotted? [] way key value
      return entries ++ [(step, .table .dotted inner)]
    | some (.table origin inner) => do
      if origin = .dotted ∨ origin = .implied ∧ way ≠ [] then
        return entries.replace step (.table origin (← addDotted? inner way key value))
      else none
    | some _ => none

/-- The entries after a header: `path` names the table that it opens, and `fill` puts the statements below the header
into that table. -/
def open? (entries : Entries) (fill : Entries → Option Entries) : (path : List Text) → Option Entries
  | [] => fill entries
  | [key] =>
    match entries.lookup key with
    | none => do return entries ++ [(key, .table .header (← fill []))]
    | some (.table .implied inner) => do return entries.replace key (.table .header (← fill inner))
    | some _ => none
  | step :: path =>
    match entries.lookup step with
    | none => do return entries ++ [(step, .table .implied (← open? [] fill path))]
    | some (.table origin inner) =>
      if origin = .inline then none
      else do return entries.replace step (.table origin (← open? inner fill path))
    | some _ => none

end Entries

/-- A key with a value, as a statement gives them. -/
structure Assignment where
  /-- The tables on the way to the key. -/
  way : List Text
  /-- The key. -/
  key : Text
  /-- The value. -/
  value : Value
  deriving Repr

/-- The entries after some assignments. -/
def Entries.assign? (entries : Entries) (assignments : List Assignment) : Option Entries :=
  assignments.foldlM (fun es a => es.addDotted? a.way a.key a.value) entries

end CprojNinja.Toml
