import CprojNinja.Text.Basic

/-!
# Escaped words

In build statements of ninja a blank ends a word and a colon ends the outputs. Where they belong to a path they are
escaped by a dollar. A dollar itself may begin a variable and is left alone, except right before a blank, where it would
escape the escape: there it is doubled.
-/

namespace CprojNinja.Ninja

/-- A path as one word of a build statement. -/
def escape : Text → Text
  | [] => []
  | '$' :: ' ' :: s => '$' :: '$' :: '$' :: ' ' :: escape s
  | ' ' :: s => '$' :: ' ' :: escape s
  | ':' :: s => '$' :: ':' :: escape s
  | c :: s => c :: escape s

/-- The words of some paths with blanks between them. -/
def escapedWords (paths : List Text) : Text := Text.joinWith " " (paths.map escape)

end CprojNinja.Ninja
