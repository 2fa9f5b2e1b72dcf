import CprojNinja.Project.Selection

/-!
# Property pages

A property page is a list of entries, each of which reads one property of a configuration and turns it into flags. The
flags of a page stand in the order of its entries, because later flags may override earlier ones.

The names of the properties of a page begin with the name of the page, so that the C page and the C++ page are one list
of entries under two names.
-/

namespace CprojNinja

/-- The flag at the leftmost place where `start` is followed by one of `marks`. -/
def firstLevel? (start : Text) (marks : List Char) : Text → Option Text
  | [] => none
  | c :: s =>
    match Text.dropStart? start (c :: s) with
    | some (mark :: _) => if mark ∈ marks then some (start ++ [mark]) else firstLevel? start marks s
    | _ => firstLevel? start marks s

/-- An entry of a property page. -/
inductive PageEntry where
  /-- A switch with its flag; `preset` is its state if the configuration does not have it. -/
  | switch (key : Text) (preset : Bool) (flag : Text)
  /-- A level chosen by its description, in which the flag itself occurs: `start` and one of `marks`. A description
  without a flag gives none, and `preset` holds if the configuration has no level. -/
  | level (key start : Text) (marks : List Char) (preset : List Text)
  /-- Flags as the user wrote them. -/
  | freeText (key : Text)
  /-- A list with a flag for each value, which stands between `before` and `after`. -/
  | values (key before after : Text)
  deriving Repr

namespace PageEntry

/-- A switch that is off if the configuration does not have it. -/
def off (key flag : Text) : PageEntry := switch key false flag

/-- A switch that is on if the configuration does not have it. -/
def on (key flag : Text) : PageEntry := switch key true flag

/-- The name of the property that an entry reads, less the name of the page. -/
def key : PageEntry → Text
  | switch key .. | level key .. | freeText key | values key .. => key

/-- The flags of an entry. -/
def flags (page : Text) (c : Configuration) : PageEntry → List Text
  | switch key preset flag => if c.isOn (page ++ key) preset then [flag] else []
  | level key start marks preset =>
    match c.text? (page ++ key) with
    | some text => (firstLevel? start marks text).toList
    | none => preset
  | freeText key => Text.nonEmpty (c.text? (page ++ key)).toList
  | values key before after => (c.values (page ++ key)).map fun value => before ++ value ++ after

end PageEntry

/-- The flags of a page. -/
def pageFlags (page : Text) (entries : List PageEntry) (c : Configuration) : List Text :=
  entries.flatMap (PageEntry.flags page c)

@[simp] theorem pageFlags_append (page : Text) (first second : List PageEntry) (c : Configuration) :
    pageFlags page (first ++ second) c = pageFlags page first c ++ pageFlags page second c := by
  simp [pageFlags]

end CprojNinja
