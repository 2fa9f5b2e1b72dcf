import CprojNinja.Text.Number
import CprojNinja.Xml.Character

/-!
# Character data

How the characters between markup and inside attribute values are read. A text as written is first taken apart into
*pieces*: characters that stand for themselves, and characters that a reference stands for. Line ends and blanks are
then normalised, and only characters that stand for themselves take part in that: a reference always means its
character.
-/

namespace CprojNinja.Xml

/-- One character of a text as written. -/
inductive Piece where
  /-- A character that stands for itself. -/
  | literal (c : Char)
  /-- The character that a reference stands for. -/
  | referenced (c : Char)
  deriving Repr, DecidableEq

/-! ## References -/

/-- The character with a code. A code that is no character reads as the replacement character; one that does not fit
into 32 bits, or whose character no document may hold, is refused. -/
def charOfCode? (code : Nat) : Option Char :=
  if code < 0x100000000 then
    let c := if code.isValidChar then Char.ofNat code else '\uFFFD'
    if isXmlChar c then some c else none
  else none

/-- The character that a reference stands for, by what is written between its `&` and its `;`. -/
def reference? : Text → Option Char
  | '#' :: 'x' :: digits => Text.number? 16 digits >>= charOfCode?
  | '#' :: digits => Text.number? 10 digits >>= charOfCode?
  | name =>
    if name = "quot" then some '"'
    else if name = "amp" then some '&'
    else if name = "apos" then some '\''
    else if name = "lt" then some '<'
    else if name = "gt" then some '>'
    else none

/-- Reads the pieces of a text; `name` holds what stands between the last `&` and here, in reverse, while a reference is
open. Every reference must be closed and known. -/
def piecesFrom : (name : Option Text) → Text → Option (List Piece)
  | none, [] => some []
  | some _, [] => none
  | none, c :: s =>
    if c = '&' then piecesFrom (some []) s else (piecesFrom none s).map (.literal c :: ·)
  | some name, c :: s =>
    if c = ';' then do
      let d ← reference? name.reverse
      let rest ← piecesFrom none s
      return .referenced d :: rest
    else piecesFrom (some (c :: name)) s

/-- The pieces of a text as written. -/
def pieces? (raw : Text) : Option (List Piece) := piecesFrom none raw

/-! ## Normalisation -/

/-- The value of an attribute: a tab or a line end becomes a space, a carriage return with its line feed one space. -/
def attributeValue : List Piece → Text
  | [] => []
  | .literal '\r' :: .literal '\n' :: rest => ' ' :: attributeValue rest
  | .literal c :: rest => (if c = '\t' || c = '\n' || c = '\r' then ' ' else c) :: attributeValue rest
  | .referenced c :: rest => c :: attributeValue rest

/-- The text of a run of character data. A carriage return becomes a line feed, together with a line feed behind it. It
is kept where a reference follows it, or where it ends the run right behind a reference (`afterReference`). -/
def textRun : (afterReference : Bool) → List Piece → Text
  | _, [] => []
  | _, .referenced c :: rest => c :: textRun true rest
  | afterReference, [.literal '\r'] => if afterReference then ['\r'] else ['\n']
  | _, .literal '\r' :: .referenced c :: rest => '\r' :: c :: textRun true rest
  | _, .literal '\r' :: .literal '\n' :: rest => '\n' :: textRun false rest
  | _, .literal '\r' :: .literal c :: rest => '\n' :: textRun false (.literal c :: rest)
  | _, .literal c :: rest => c :: textRun false rest

/-- The value that an attribute value as written has. -/
def attributeValue? (raw : Text) : Option Text := (pieces? raw).map attributeValue

/-- The text that character data as written has. -/
def characterData? (raw : Text) : Option Text := (pieces? raw).map (textRun false)

/-- The text of a section in which nothing is markup. -/
def sectionData (raw : Text) : Text := textRun false (raw.map .literal)

end CprojNinja.Xml
