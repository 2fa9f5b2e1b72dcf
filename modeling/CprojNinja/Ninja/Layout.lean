import CprojNinja.Text.Basic

/-!
# Layout of lines

Lines of a ninja file are cut when they are too wide. A cut takes the place of a blank that no dollar escapes; the line
before it ends in a blank and a dollar, and the line after it is indented further. If possible the cut is the last one
that keeps the line within the width, otherwise the first one after that, and without any such blank the line stays
too wide.

Width counts bytes. A blank is escaped if an odd number of dollars stands right before it, so the searches carry along
whether the dollars seen last are odd in number.
-/

namespace CprojNinja.Ninja

/-- The width that lines keep if they can. -/
def lineWidth : Nat := 120

/-- What ends a line that goes on in the next one. -/
def continuation : Text := " $"

/-! ## Cuts -/

/-- Whether the dollars read last are odd in number, after one more character. -/
def oddDollars (odd : Bool) (c : Char) : Bool := c = '$' && !odd

/-- The parts around the last blank that is not escaped and lies in the first `limit` bytes. -/
def lastCut? (limit : Nat) (odd : Bool) : Text → Option (Text × Text)
  | [] => none
  | c :: s =>
    if limit = 0 then none
    else
      match lastCut? (limit - c.utf8Size) (oddDollars odd c) s with
      | some (before, after) => some (c :: before, after)
      | none => if c = ' ' && !odd then some ([], s) else none

/-- The parts around the first blank that is not escaped and lies behind the first `skipped` bytes. -/
def firstCut? (skipped : Nat) (odd : Bool) : Text → Option (Text × Text)
  | [] => none
  | c :: s =>
    if c = ' ' && !odd && skipped = 0 then some ([], s)
    else (firstCut? (skipped - c.utf8Size) (oddDollars odd c) s).map fun (before, after) => (c :: before, after)

/-- The parts around the best place for a cut. -/
def cut? (available : Nat) (s : Text) : Option (Text × Text) :=
  (lastCut? available false s).or (firstCut? available false s)

theorem eq_of_lastCut? {limit : Nat} {odd : Bool} {s before after : Text}
    (h : lastCut? limit odd s = some (before, after)) : s = before ++ ' ' :: after := by
  induction s generalizing limit odd before with
  | nil => cases h
  | cons c s ih =>
    unfold lastCut? at h
    split at h
    · cases h
    · split at h
      · next hs => cases h; simp [ih hs]
      · split at h
        · next hc => cases h; simp_all
        · cases h

theorem eq_of_firstCut? {skipped : Nat} {odd : Bool} {s before after : Text}
    (h : firstCut? skipped odd s = some (before, after)) : s = before ++ ' ' :: after := by
  induction s generalizing skipped odd before with
  | nil => cases h
  | cons c s ih =>
    unfold firstCut? at h
    split at h
    · next hc => cases h; simp_all
    · obtain ⟨_, hs, he⟩ := Option.map_eq_some_iff.1 h
      cases he
      simp [ih hs]

/-- A cut takes the place of one blank. -/
theorem eq_of_cut? {available : Nat} {s before after : Text} (h : cut? available s = some (before, after)) :
    s = before ++ ' ' :: after := by
  rcases Option.or_eq_some_iff.1 h with h | ⟨_, h⟩
  · exact eq_of_lastCut? h
  · exact eq_of_firstCut? h

/-! ## Lines -/

/-- The contents of the lines of a text, where the first one is indented by `lead` blanks and the others by
`nextLead`. -/
def contents (lead nextLead : Nat) (s : Text) : List Text :=
  if lead + Text.byteWidth s ≤ lineWidth then [s]
  else
    match h : cut? (lineWidth - lead - continuation.length) s with
    | none => [s]
    | some (before, after) =>
      have : after.length < s.length := by simp [eq_of_cut? h]; omega
      before :: contents nextLead nextLead after
termination_by s.length

/-- Nothing is lost: the contents with single blanks between them are the text. -/
theorem joinWith_contents (lead nextLead : Nat) (s : Text) :
    Text.joinWith " " (contents lead nextLead s) = s := by
  fun_induction contents lead nextLead s with
  | case1 => simp [Text.joinWith, List.intercalate, List.intersperse]
  | case2 => simp [Text.joinWith, List.intercalate, List.intersperse]
  | case3 lead s _ before after h _ ih =>
    have : ∃ c cs, contents nextLead nextLead after = c :: cs := by
      unfold contents
      split
      · exact ⟨_, _, rfl⟩
      · split <;> exact ⟨_, _, rfl⟩
    obtain ⟨c, cs, hc⟩ := this
    rw [eq_of_cut? h, hc]
    rw [hc] at ih
    simp only [Text.joinWith, List.intercalate, List.intersperse, List.flatten_cons] at ih ⊢
    simpa using ih

/-- The blanks at the start of a line. -/
def indentation (lead : Nat) : Text := List.replicate lead ' '

/-- The lines of some contents: each but the last one ends in a continuation. -/
def joinLines (lead nextLead : Nat) : List Text → Text
  | [] => []
  | [last] => indentation lead ++ last ++ "\n"
  | content :: rest => indentation lead ++ content ++ continuation ++ "\n" ++ joinLines nextLead nextLead rest

/-- A text laid out in lines at a depth of indentation. The lines after a cut lie two steps deeper. -/
def layout (depth : Nat) (s : Text) : Text :=
  let lead := 2 * depth
  let nextLead := 2 * (depth + 2)
  joinLines lead nextLead (contents lead nextLead s)

end CprojNinja.Ninja
