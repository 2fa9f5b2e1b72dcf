import CprojNinja.Text.Printable

/-!
# Quoted texts

The quoted form in which a message shows a text that may hold anything: between double quotes, on one line, with every
character that has no visible form of its own, or none apart from its neighbour, written as an escape.
-/

namespace CprojNinja.Text

/-- The letter that stands behind a backslash for this character, if it has one. -/
def escapeLetter? : Char → Option Char
  | '\x00' => some '0'
  | '\t' => some 't'
  | '\n' => some 'n'
  | '\r' => some 'r'
  | '"' => some '"'
  | '\\' => some '\\'
  | _ => none

/-- The code point of a character in lower-case hexadecimal digits between braces. -/
def codeEscape (c : Char) : Text := "\\u\x7b" ++ Nat.toDigits 16 c.toNat ++ "\x7d"

/-- The form of one character inside a quoted text. A combining character would combine with what stands before it, be
that a letter or the opening quote, so it is written as an escape. -/
def quotedChar (c : Char) : Text :=
  match escapeLetter? c with
  | some letter => ['\\', letter]
  | none => if isPrintable c && !isCombining c then [c] else codeEscape c

/-- The quoted form of a text. -/
def quoted (s : Text) : Text := ['"'] ++ s.flatMap quotedChar ++ ['"']

end CprojNinja.Text
