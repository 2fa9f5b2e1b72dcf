import CprojNinja.Toml.Date
import CprojNinja.Toml.Quotation
import CprojNinja.Toml.Table

/-!
# Statements of settings files

A file consists of statements, one a line: headers, which open a table, and assignments to dotted keys. Between them are
blank lines and comments. An inline table is a list of assignments in braces, and it is put together while it is read.

A reader returns its value with the rest of its input and a proof that the rest is shorter. Every recursion of this
module ends because of that.
-/

namespace CprojNinja.Toml

/-- What a reader of `s` returns. -/
structure Read (α : Type) (s : Text) where
  /-- What was read. -/
  value : α
  /-- What follows it. -/
  rest : Text
  /-- Something was read. -/
  shorter : rest.length < s.length

/-- Text without the blanks at its start. -/
def skipBlanks (s : Text) : Text := s.dropWhile isLineBlank

theorem length_dropWhile_le (p : Char → Bool) (s : Text) : (s.dropWhile p).length ≤ s.length :=
  (List.dropWhile_sublist p).length_le

theorem length_skipBlanks (s : Text) : (skipBlanks s).length ≤ s.length := length_dropWhile_le _ s

/-- What follows after blanks have been skipped on both sides of what was read is shorter as well. -/
theorem Read.length_lt_of_skipBlanks {α : Type} {s rest : Text} (read : Read α (skipBlanks s))
    (after : skipBlanks read.rest = rest) : rest.length < s.length := by
  have := length_skipBlanks read.rest
  have := length_skipBlanks s
  have := read.shorter
  rw [← after]
  omega

/-! ## Keys -/

/-- Whether a character may stand in a key without quotes. -/
def isBareChar (c : Char) : Bool := c.isAlphanum || c = '_' || c = '-'

/-- Reads one part of a key. -/
def readKeyPart? (s : Text) : Option (Read Text s) :=
  if bare : (s.head?.map isBareChar) = some true then
    some ⟨s.takeWhile isBareChar, s.dropWhile isBareChar, by
      cases s with
      | nil => simp at bare
      | cons c s =>
        have hc : isBareChar c = true := by simpa using bare
        have := length_dropWhile_le isBareChar s
        simp [hc]; omega⟩
  else
    match h : readLine? s with
    | some (part, rest) => some ⟨part, rest, length_readLine? h⟩
    | none => none

/-- Reads a key: its parts, with dots and perhaps blanks between them. -/
def readKey? (s : Text) : Option (Read (List Text × Text) s) := do
  let part ← readKeyPart? (skipBlanks s)
  match after : skipBlanks part.rest with
  | '.' :: rest =>
    have shorter : rest.length + 1 < s.length := part.length_lt_of_skipBlanks after
    let more ← readKey? rest
    return ⟨(part.value :: more.value.1, more.value.2), more.rest,
      Nat.lt_trans more.shorter (Nat.lt_of_succ_lt shorter)⟩
  | rest => return ⟨([], part.value), rest, part.length_lt_of_skipBlanks after⟩
termination_by s.length
decreasing_by exact Nat.lt_of_succ_lt shorter

/-! ## Values -/

mutual

/-- Reads a value. -/
def readValue? (s : Text) : Option (Read Value s) :=
  match s with
  | '{' :: rest => do
    let assignments ← readAssignments? true rest
    let entries ← Entries.assign? [] assignments.value
    return ⟨.table .inline entries, assignments.rest, by have := assignments.shorter; simp; omega⟩
  | s =>
    match h : readQuoted? s with
    | some (text, rest) => some ⟨.text text, rest, length_readQuoted? h⟩
    | none =>
      match h : readDate? s with
      | some (date, rest) => some ⟨.date date, rest, length_readDate? h⟩
      | none => none
termination_by (s.length, 0)

/-- Reads an assignment. -/
def readAssignment? (s : Text) : Option (Read Assignment s) := do
  let key ← readKey? s
  match after : key.rest with
  | '=' :: rest =>
    have : rest.length + 1 < s.length := by
      have length := congrArg List.length after
      have := key.shorter
      simp only [List.length_cons] at length
      omega
    have := length_skipBlanks rest
    let value ← readValue? (skipBlanks rest)
    return ⟨⟨key.value.1, key.value.2, value.value⟩, value.rest, by have := value.shorter; omega⟩
  | _ => none
termination_by (s.length, 1)

/-- Reads the assignments of an inline table up to its closing brace; an empty table is allowed only at its start. -/
def readAssignments? (start : Bool) (s : Text) : Option (Read (List Assignment) s) :=
  match after : skipBlanks s with
  | '}' :: rest =>
    if start then some ⟨[], rest, by
      have length := congrArg List.length after
      have := length_skipBlanks s
      simp only [List.length_cons] at length
      omega⟩
    else none
  | _ => do
    let first ← readAssignment? s
    match after : skipBlanks first.rest with
    | ',' :: rest =>
      have : rest.length + 1 < s.length := by
        have length := congrArg List.length after
        have := length_skipBlanks first.rest
        have := first.shorter
        simp only [List.length_cons] at length
        omega
      let more ← readAssignments? false rest
      return ⟨first.value :: more.value, more.rest, by have := more.shorter; omega⟩
    | '}' :: rest =>
      return ⟨[first.value], rest, by
        have length := congrArg List.length after
        have := length_skipBlanks first.rest
        have := first.shorter
        simp only [List.length_cons] at length
        omega⟩
    | _ => none
termination_by (s.length, 2)

end

/-! ## Statements -/

/-- A statement. -/
inductive Statement where
  /-- A header, with the path of the table that it opens. -/
  | header (path : List Text)
  /-- An assignment in the table that is open. -/
  | assignment (a : Assignment)
  deriving Repr

/-- What follows the end of a line, before which only blanks and a comment may stand. -/
def lineEnd? (s : Text) : Option Text :=
  let s := skipBlanks s
  let s := if s.head? = some '#' then s.dropWhile isLineChar else s
  match s with
  | [] => some []
  | '\n' :: rest => some rest
  | '\r' :: '\n' :: rest => some rest
  | _ => none

theorem length_lineEnd? {s rest : Text} (h : lineEnd? s = some rest) : rest.length < s.length ∨ rest = [] := by
  unfold lineEnd? at h
  extract_lets s' s'' at h
  have h' : s'.length ≤ s.length := length_skipBlanks s
  have h'' : s''.length ≤ s'.length := by
    unfold s''
    split
    · exact length_dropWhile_le _ _
    · exact Nat.le_refl _
  clear_value s''
  split at h
  · exact .inr (Option.some.inj h).symm
  · next r => cases h; simp only [List.length_cons] at h''; exact .inl (by omega)
  · next r => cases h; simp only [List.length_cons] at h''; exact .inl (by omega)
  · cases h

/-- Reads a statement, without the end of its line. -/
def readStatement? (s : Text) : Option (Read Statement s) :=
  match s with
  | '[' :: rest => do
    let key ← readKey? rest
    match after : key.rest with
    | ']' :: last => return ⟨.header (key.value.1 ++ [key.value.2]), last, by
        have length := congrArg List.length after
        have := key.shorter
        simp only [List.length_cons] at length ⊢
        omega⟩
    | _ => none
  | s => do
    let a ← readAssignment? s
    return ⟨.assignment a.value, a.rest, a.shorter⟩

/-- Reads the statements of a file. -/
def readStatements? (s : Text) : Option (List Statement) :=
  match start : skipBlanks s with
  | [] => some []
  | c :: rest =>
    if c = '\n' ∨ c = '\r' ∨ c = '#' then
      match ended : lineEnd? (c :: rest) with
      | some next =>
        have : next.length < s.length := by
          have length := congrArg List.length start
          have := length_skipBlanks s
          simp only [List.length_cons] at length
          rcases length_lineEnd? ended with h | rfl
          · simp only [List.length_cons] at h
            omega
          · rw [List.length_nil]
            omega
        readStatements? next
      | none => none
    else do
      let statement ← readStatement? (c :: rest)
      match ended : lineEnd? statement.rest with
      | some next =>
        have : next.length < s.length := by
          have length := congrArg List.length start
          have := length_skipBlanks s
          have forward := statement.shorter
          simp only [List.length_cons] at length forward
          rcases length_lineEnd? ended with h | rfl
          · omega
          · rw [List.length_nil]
            omega
        return statement.value :: (← readStatements? next)
      | none => none
termination_by s.length

end CprojNinja.Toml
