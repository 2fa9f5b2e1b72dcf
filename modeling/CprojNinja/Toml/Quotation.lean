import CprojNinja.Text.Number

/-!
# Quoted texts

A text is quoted in one of two ways. Between double quotes a backslash begins an escape; between single quotes every
character stands for itself. Tripled quotes enclose texts of several lines: a line break right after the opening quotes
is dropped, one or two quotes may stand anywhere inside, also right before the closing quotes, and in the first way a
backslash at the end of a line takes away the line break and all blanks after it.

The readers start after the opening quotes and return the text and what follows the closing quotes.
-/

namespace CprojNinja.Toml

/-- Whether a character is a blank inside a line. -/
def isLineBlank (c : Char) : Bool := c = ' ' || c = '\t'

/-- Whether a character may stand in a line of text: all but control characters, and the tab. -/
def isLineChar (c : Char) : Bool := c = '\t' || (0x20 ≤ c.toNat && c.toNat ≠ 0x7F)

/-- The character with the code that hexadecimal digits denote, if there is one. -/
def characterOfHex? (digits : List Char) : Option Char := do
  let code ← Text.number? 16 digits
  if code.isValidChar then some (Char.ofNat code) else none

/-- The character that an escape of one letter stands for. -/
def escaped? : Char → Option Char
  | 'b' => some '\x08'
  | 't' => some '\t'
  | 'n' => some '\n'
  | 'f' => some '\x0C'
  | 'r' => some '\r'
  | '"' => some '"'
  | '\\' => some '\\'
  | _ => none

/-- Puts a character in front of a text that was read. -/
def consRead (c : Char) (r : Option (Text × Text)) : Option (Text × Text) := r.map fun (text, rest) => (c :: text, rest)

theorem length_of_consRead {c : Char} {r : Option (Text × Text)} {text rest : Text} {n : Nat}
    (h : consRead c r = some (text, rest)) (hr : ∀ text rest, r = some (text, rest) → rest.length < n) :
    rest.length < n := by
  obtain ⟨_, hr', he⟩ := Option.map_eq_some_iff.1 h
  cases he
  exact hr _ _ hr'

/-- Reads a text up to a double quote. -/
def readBasic : Text → Option (Text × Text)
  | [] => none
  | '"' :: s => some ([], s)
  | '\\' :: 'u' :: a :: b :: c :: d :: s =>
    (characterOfHex? [a, b, c, d]).bind fun e => consRead e (readBasic s)
  | '\\' :: 'U' :: a :: b :: c :: d :: e :: f :: g :: h :: s =>
    (characterOfHex? [a, b, c, d, e, f, g, h]).bind fun e => consRead e (readBasic s)
  | '\\' :: c :: s => (escaped? c).bind fun e => consRead e (readBasic s)
  | c :: s => if isLineChar c && c ≠ '\\' then consRead c (readBasic s) else none

/-- Reads a text up to a single quote. -/
def readLiteral : Text → Option (Text × Text)
  | [] => none
  | c :: s => if c = '\'' then some ([], s) else if isLineChar c then consRead c (readLiteral s) else none

/-- The quotes that belong to a text, and what follows the text, after three quotes were read that close it: up to two
more quotes come before the closing ones. -/
def closingQuotes (quote : Char) : Text → Text × Text
  | c :: d :: s => if c = quote then if d = quote then ([c, d], s) else ([c], d :: s) else ([], c :: d :: s)
  | [c] => if c = quote then ([c], []) else ([], [c])
  | [] => ([], [])

theorem length_closingQuotes {quote : Char} {s text rest : Text} (h : closingQuotes quote s = (text, rest)) :
    rest.length ≤ s.length := by
  have : (closingQuotes quote s).2.length ≤ s.length := by
    fun_cases closingQuotes quote s
    all_goals simp only [List.length_cons, List.length_nil, Nat.le_refl]
    all_goals omega
  simpa [h] using this

/-- What a reader of several lines is about. -/
inductive LineMode where
  /-- It reads characters of the text. -/
  | characters
  /-- It has read a backslash and expects the end of the line. -/
  | lineEnd
  /-- It passes over blanks and line breaks. -/
  | gap
  deriving Repr, DecidableEq

/-- Reads a text of several lines up to three double quotes. -/
def readBasicLines : LineMode → Text → Option (Text × Text)
  | _, [] => none
  | .lineEnd, '\r' :: '\n' :: s => readBasicLines .gap s
  | .lineEnd, c :: s =>
    if c = '\n' then readBasicLines .gap s else if isLineBlank c then readBasicLines .lineEnd s else none
  | .characters, '"' :: '"' :: '"' :: s => some (closingQuotes '"' s)
  | .characters, '\r' :: '\n' :: s => consRead '\n' (readBasicLines .characters s)
  | .characters, '\\' :: 'u' :: a :: b :: c :: d :: s =>
    (characterOfHex? [a, b, c, d]).bind fun e => consRead e (readBasicLines .characters s)
  | .characters, '\\' :: 'U' :: a :: b :: c :: d :: e :: f :: g :: h :: s =>
    (characterOfHex? [a, b, c, d, e, f, g, h]).bind fun e => consRead e (readBasicLines .characters s)
  | .characters, '\\' :: c :: s =>
    if isLineBlank c || c = '\n' || c = '\r' then readBasicLines .lineEnd (c :: s)
    else (escaped? c).bind fun e => consRead e (readBasicLines .characters s)
  | .characters, c :: s =>
    if (isLineChar c && c ≠ '\\') || c = '\n' then consRead c (readBasicLines .characters s) else none
  | .gap, '\r' :: '\n' :: s => readBasicLines .gap s
  | .gap, c :: s =>
    if isLineBlank c || c = '\n' then readBasicLines .gap s else readBasicLines .characters (c :: s)
termination_by mode s => (s.length, if mode = .gap then 1 else 0)

/-- Reads a text of several lines up to three single quotes. -/
def readLiteralLines : Text → Option (Text × Text)
  | [] => none
  | '\'' :: '\'' :: '\'' :: s => some (closingQuotes '\'' s)
  | '\r' :: '\n' :: s => consRead '\n' (readLiteralLines s)
  | c :: s => if isLineChar c || c = '\n' then consRead c (readLiteralLines s) else none

/-- Text without a line break at its start. -/
def dropLineBreak : Text → Text
  | '\n' :: s => s
  | '\r' :: '\n' :: s => s
  | s => s

/-- Reads a text in one line, from its opening quote on. -/
def readLine? : Text → Option (Text × Text)
  | '"' :: s => readBasic s
  | '\'' :: s => readLiteral s
  | _ => none

/-- Reads a text, from its opening quotes on. -/
def readQuoted? : Text → Option (Text × Text)
  | '"' :: '"' :: '"' :: s => readBasicLines .characters (dropLineBreak s)
  | '\'' :: '\'' :: '\'' :: s => readLiteralLines (dropLineBreak s)
  | s => readLine? s

/-! ## Readers move forward -/

theorem length_readBasic {s text rest : Text} (h : readBasic s = some (text, rest)) : rest.length < s.length := by
  fun_induction readBasic s generalizing text rest with
  | case1 => cases h
  | case2 s => cases h; simp
  | case3 a b c d s ih =>
    obtain ⟨e, -, he⟩ := Option.bind_eq_some_iff.1 h
    have := length_of_consRead he fun _ _ => ih
    simp; omega
  | case4 a b c d e f g h' s ih =>
    obtain ⟨e, -, he⟩ := Option.bind_eq_some_iff.1 h
    have := length_of_consRead he fun _ _ => ih
    simp; omega
  | case5 c s _ _ ih =>
    obtain ⟨e, -, he⟩ := Option.bind_eq_some_iff.1 h
    have := length_of_consRead he fun _ _ => ih
    simp; omega
  | case6 c s _ _ _ _ _ ih =>
    have := length_of_consRead h fun _ _ => ih
    simp; omega
  | case7 => cases h


theorem length_readLiteral {s text rest : Text} (h : readLiteral s = some (text, rest)) :
    rest.length < s.length := by
  fun_induction readLiteral s generalizing text rest with
  | case1 => cases h
  | case2 s => cases h; simp
  | case3 c s _ _ ih =>
    have := length_of_consRead h fun _ _ => ih
    simp; omega
  | case4 => cases h

theorem length_readBasicLines {mode : LineMode} {s text rest : Text}
    (h : readBasicLines mode s = some (text, rest)) : rest.length < s.length := by
  fun_induction readBasicLines mode s generalizing text rest with
  | case1 | case5 | case13 => cases h
  | case2 s ih | case14 s ih => have := ih h; simp; omega
  | case3 s _ ih | case4 _ s _ _ _ ih | case15 _ s _ _ ih => have := ih h; simp; omega
  | case6 s =>
    have := length_closingQuotes (Option.some.inj h)
    simp; omega
  | case7 s ih =>
    have := length_of_consRead h fun _ _ => ih
    simp; omega
  | case8 a b c d s ih =>
    obtain ⟨e, -, he⟩ := Option.bind_eq_some_iff.1 h
    have := length_of_consRead he fun _ _ => ih
    simp; omega
  | case9 a b c d e f g h' s ih =>
    obtain ⟨e, -, he⟩ := Option.bind_eq_some_iff.1 h
    have := length_of_consRead he fun _ _ => ih
    simp; omega
  | case10 c s _ _ _ ih => have := ih h; simpa using Nat.lt_succ_of_lt this
  | case11 c s _ _ _ ih =>
    obtain ⟨e, -, he⟩ := Option.bind_eq_some_iff.1 h
    have := length_of_consRead he fun _ _ => ih
    simp; omega
  | case12 c s _ _ _ _ _ _ ih =>
    have := length_of_consRead h fun _ _ => ih
    simp; omega
  | case16 c s _ _ ih => exact ih h

theorem length_readLiteralLines {s text rest : Text} (h : readLiteralLines s = some (text, rest)) :
    rest.length < s.length := by
  fun_induction readLiteralLines s generalizing text rest with
  | case1 => cases h
  | case2 s =>
    have := length_closingQuotes (Option.some.inj h)
    simp; omega
  | case3 s ih =>
    have := length_of_consRead h fun _ _ => ih
    simp; omega
  | case4 c s _ _ _ ih =>
    have := length_of_consRead h fun _ _ => ih
    simp; omega
  | case5 => cases h

theorem length_dropLineBreak (s : Text) : (dropLineBreak s).length ≤ s.length := by
  fun_cases dropLineBreak s
  all_goals simp only [List.length_cons, Nat.le_refl]
  all_goals omega

theorem length_readLine? {s text rest : Text} (h : readLine? s = some (text, rest)) : rest.length < s.length := by
  unfold readLine? at h
  split at h
  · exact Nat.lt_succ_of_lt (length_readBasic h)
  · exact Nat.lt_succ_of_lt (length_readLiteral h)
  · cases h

theorem length_readQuoted? {s text rest : Text} (h : readQuoted? s = some (text, rest)) :
    rest.length < s.length := by
  unfold readQuoted? at h
  split at h
  · next s => have := length_readBasicLines h; have := length_dropLineBreak s; simp; omega
  · next s => have := length_readLiteralLines h; have := length_dropLineBreak s; simp; omega
  · exact length_readLine? h

end CprojNinja.Toml
