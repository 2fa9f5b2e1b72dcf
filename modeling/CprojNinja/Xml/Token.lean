import CprojNinja.Xml.Character

/-!
# Markup tokens

A document as written is a sequence of tokens: start tags, end tags, runs of character data, sections, comments and
processing instructions. Reading tokens settles everything that concerns one piece of markup on its own; how they nest
is the matter of `CprojNinja.Xml.Document`.

Every reader gives back what it read and the characters that follow. None of them gives back more characters than it was
given (the lemmas named `length_of_…`), so reading a document comes to an end.
-/

namespace CprojNinja.Xml

/-- A name as written, taken apart at its colon. -/
structure QName where
  /-- What stands before the colon; empty without a colon. -/
  space : Text
  /-- What stands behind the colon. -/
  localPart : Text
  deriving Repr, DecidableEq

/-- An attribute as written. -/
structure RawAttribute where
  /-- Its name. -/
  name : QName
  /-- Its value between the quotes. -/
  value : Text
  deriving Repr, DecidableEq

/-- One piece of markup or character data. -/
inductive Token where
  /-- A start tag; `closed` if it closes its element itself. -/
  | startTag (name : QName) (attributes : List RawAttribute) (closed : Bool)
  /-- An end tag. -/
  | endTag (name : QName)
  /-- Characters up to the next markup, with references unread. -/
  | characters (raw : Text)
  /-- A section in which nothing is markup. -/
  | unparsed (raw : Text)
  /-- A comment. -/
  | comment
  /-- A processing instruction. -/
  | instruction
  deriving Repr, DecidableEq

/-! ## Small readers -/

/-- The characters behind any blanks. -/
def skipSpace (s : Text) : Text := s.dropWhile isSpace

theorem length_dropWhile_le (p : Char → Bool) (s : Text) : (s.dropWhile p).length ≤ s.length :=
  (List.dropWhile_sublist p).length_le

theorem length_skipSpace_le (s : Text) : (skipSpace s).length ≤ s.length := length_dropWhile_le _ s

theorem length_of_dropStart? {p s r : Text} (h : Text.dropStart? p s = some r) : r.length ≤ s.length := by
  have := congrArg List.length (Text.dropStart?_eq_some.1 h)
  simp at this
  omega

theorem length_of_cutAt? {mark s before after : Text} (h : Text.cutAt? mark s = some (before, after)) :
    after.length ≤ s.length := by
  have := congrArg List.length (Text.eq_of_cutAt? h)
  simp at this
  omega

/-- Takes a name apart: at most one colon, a local part, and both parts start like a name. -/
def QName.ofText? (word : Text) : Option QName :=
  let startsName (part : Text) : Bool := part.head?.all isNameStart
  match Text.splitOn ':' word with
  | [name] => if name ≠ [] ∧ startsName name then some ⟨[], name⟩ else none
  | [space, name] => if name ≠ [] ∧ startsName name ∧ startsName space then some ⟨space, name⟩ else none
  | _ => none

/-- Reads a name. -/
def readName (s : Text) : Option (QName × Text) :=
  (QName.ofText? (s.takeWhile isNameChar)).map fun name => (name, s.dropWhile isNameChar)

theorem length_of_readName {s r : Text} {name : QName} (h : readName s = some (name, r)) :
    r.length ≤ s.length := by
  obtain ⟨_, _, hr⟩ := Option.map_eq_some_iff.1 h
  cases hr
  exact length_dropWhile_le _ s

/-- Reads a quoted value, in which no `<` may stand. -/
def readValue : Text → Option (Text × Text)
  | [] => none
  | quote :: s =>
    if quote = '"' ∨ quote = '\'' then (Text.cutAt? [quote] s).filter fun (value, _) => '<' ∉ value else none

theorem length_of_readValue {s value r : Text} (h : readValue s = some (value, r)) : r.length ≤ s.length := by
  cases s with
  | nil => simp [readValue] at h
  | cons quote s =>
    simp only [readValue, Option.ite_none_right_eq_some, Option.filter_eq_some_iff] at h
    have := length_of_cutAt? h.2.1
    simp
    omega

/-- Reads an attribute: a name, an equals sign that may stand between blanks, a quoted value. -/
def readAttribute (s : Text) : Option (RawAttribute × Text) :=
  match readName s with
  | some (name, s) =>
    match skipSpace s with
    | '=' :: s => (readValue (skipSpace s)).map fun (value, rest) => (⟨name, value⟩, rest)
    | _ => none
  | none => none

theorem length_of_readAttribute {s r : Text} {a : RawAttribute} (h : readAttribute s = some (a, r)) :
    r.length ≤ s.length := by
  unfold readAttribute at h
  split at h
  · next name t hn =>
    split at h
    · next u hu =>
      obtain ⟨⟨value, rest⟩, hv, hr⟩ := Option.map_eq_some_iff.1 h
      cases hr
      have h1 := length_of_readName hn
      have h2 := length_skipSpace_le t
      rw [hu] at h2
      have h3 := length_skipSpace_le u
      have h4 := length_of_readValue hv
      simp at h2
      omega
    · cases h
  · cases h

/-! ## Tags -/

/-- Reads the attributes of a start tag and its end. Before each attribute there is a blank. -/
def readAttributes (s : Text) : Option ((List RawAttribute × Bool) × Text) :=
  match skipSpace s with
  | '/' :: '>' :: rest => some (([], true), rest)
  | '>' :: rest => some (([], false), rest)
  | t =>
    if hasSpace : t.length < s.length then
      match read : readAttribute t with
      | some (a, rest) =>
        have : rest.length < s.length := Nat.lt_of_le_of_lt (length_of_readAttribute read) hasSpace
        (readAttributes rest).map fun ((attributes, closed), rest) => ((a :: attributes, closed), rest)
      | none => none
    else none
termination_by s.length

theorem length_of_readAttributes {s r : Text} {tag : List RawAttribute × Bool}
    (h : readAttributes s = some (tag, r)) : r.length ≤ s.length := by
  fun_induction readAttributes s generalizing tag with
  | case1 s rest hs =>
    cases h
    have := length_skipSpace_le s
    rw [hs] at this
    simp at this
    omega
  | case2 s rest hs =>
    cases h
    have := length_skipSpace_le s
    rw [hs] at this
    simp at this
    omega
  | case3 s _ _ hasSpace a rest read lt ih =>
    obtain ⟨⟨⟨attributes, closed⟩, rest'⟩, hr, he⟩ := Option.map_eq_some_iff.1 h
    cases he
    have := ih hr
    omega
  | case4 => cases h
  | case5 => cases h

/-- Reads a start tag behind its `<`. -/
def readStartTag (s : Text) : Option (Token × Text) :=
  match readName s with
  | some (name, s) =>
    (readAttributes s).map fun ((attributes, closed), rest) => (.startTag name attributes closed, rest)
  | none => none

/-- Reads an end tag behind its `</`. -/
def readEndTag (s : Text) : Option (Token × Text) :=
  match readName s with
  | some (name, s) => (Text.dropStart? ">" (skipSpace s)).map fun rest => (.endTag name, rest)
  | none => none

/-! ## Comments, instructions, sections, characters -/

/-- Reads a comment behind its `<!--`. Two hyphens may not stand in it, nor one at its end. -/
def readComment (s : Text) : Option (Token × Text) :=
  match Text.cutAt? "-->" s with
  | some (body, rest) => if Text.occursIn "--" body ∨ body.getLast? = some '-' then none else some (.comment, rest)
  | none => none

/-- Reads a processing instruction behind its `<?`. An XML declaration is none. -/
def readInstruction (s : Text) : Option (Token × Text) :=
  if Text.startsWith "xml " s then none
  else if s.head?.any isNameStart then
    (Text.cutAt? "?>" (s.dropWhile isNameChar)).map fun (_, rest) => (.instruction, rest)
  else none

/-- Reads a section behind its `<![CDATA[`. -/
def readSection (s : Text) : Option (Token × Text) :=
  (Text.cutAt? "]]>" s).map fun (raw, rest) => (.unparsed raw, rest)

/-- Reads what stands behind a `<`. -/
def readMarkup (s : Text) : Option (Token × Text) :=
  match Text.dropStart? "!--" s with
  | some s => readComment s
  | none =>
    match Text.dropStart? "![CDATA[" s with
    | some s => readSection s
    | none =>
      match s with
      | '?' :: s => readInstruction s
      | '/' :: s => readEndTag s
      | s => readStartTag s

theorem length_of_readMarkup {s r : Text} {token : Token} (h : readMarkup s = some (token, r)) :
    r.length ≤ s.length := by
  unfold readMarkup at h
  split at h
  · next t ht =>
    unfold readComment at h
    split at h
    · next body rest hc =>
      split at h
      · cases h
      · cases h
        exact Nat.le_trans (length_of_cutAt? hc) (length_of_dropStart? ht)
    · cases h
  · split at h
    · next t ht =>
      obtain ⟨⟨raw, rest⟩, hc, he⟩ := Option.map_eq_some_iff.1 h
      cases he
      exact Nat.le_trans (length_of_cutAt? hc) (length_of_dropStart? ht)
    · split at h
      · next t _ _ =>
        unfold readInstruction at h
        split at h
        · cases h
        · split at h
          · obtain ⟨⟨body, rest⟩, hc, he⟩ := Option.map_eq_some_iff.1 h
            cases he
            have h1 := length_of_cutAt? hc
            have h2 := length_dropWhile_le isNameChar t
            simp
            omega
          · cases h
      · next t _ _ =>
        unfold readEndTag at h
        split at h
        · next name u hn =>
          obtain ⟨rest, hd, he⟩ := Option.map_eq_some_iff.1 h
          cases he
          have h1 := length_of_readName hn
          have h2 := length_of_dropStart? hd
          have h3 := length_skipSpace_le u
          simp
          omega
        · cases h
      · unfold readStartTag at h
        split at h
        · next name u hn =>
          obtain ⟨⟨⟨attributes, closed⟩, rest⟩, ha, he⟩ := Option.map_eq_some_iff.1 h
          cases he
          exact Nat.le_trans (length_of_readAttributes ha) (length_of_readName hn)
        · cases h

/-! ## Whole documents -/

/-- Reads all tokens. Character data must not hold the end of a section. -/
def readTokens (s : Text) : Option (List Token) :=
  match s with
  | [] => some []
  | '<' :: s =>
    match _ : readMarkup s with
    | some (token, rest) => (readTokens rest).map (token :: ·)
    | none => none
  | c :: s =>
    let raw := c :: s.takeWhile (· ≠ '<')
    if Text.occursIn "]]>" raw then none
    else (readTokens (s.dropWhile (· ≠ '<'))).map (.characters raw :: ·)
termination_by s.length
decreasing_by
  · exact Nat.lt_succ_of_le (length_of_readMarkup ‹_›)
  · exact Nat.lt_succ_of_le (length_dropWhile_le _ s)

end CprojNinja.Xml
