import CprojNinja.Graph.Place

/-!
# Positions

Which file a path names. Ninja goes through the components of a path from left to right: empty ones and single dots stay
where they are, and two dots lead one directory up. What counts in the end is how many directories the path has climbed
above its start, and through which names it went from there.

How far a path has climbed never decreases, so a path that ends below its start has been there all the way.
-/

namespace CprojNinja

/-- Where a path has come to. -/
structure Position where
  /-- The number of directories that it has climbed above its start. -/
  ups : Nat
  /-- The names that it went through from there, the last one first. -/
  names : List Text
  deriving Repr, DecidableEq

/-- A component that names a file or a directory. -/
def IsName (component : Text) : Prop := component ≠ [] ∧ component ≠ "." ∧ component ≠ ".."

instance (component : Text) : Decidable (IsName component) := inferInstanceAs (Decidable (_ ∧ _ ∧ _))

namespace Position

/-- Where every path starts. -/
def start : Position := ⟨0, []⟩

/-- The position after one more component. -/
def step (position : Position) (component : Text) : Position :=
  if component = [] ∨ component = "." then position
  else if component = ".." then
    match position.names with
    | [] => ⟨position.ups + 1, []⟩
    | _ :: outer => ⟨position.ups, outer⟩
  else ⟨position.ups, component :: position.names⟩

/-- The position after some more components. -/
def walk (position : Position) (components : List Text) : Position := components.foldl step position

variable (position : Position)

theorem walk_append (before after : List Text) :
    position.walk (before ++ after) = (position.walk before).walk after := List.foldl_append

theorem step_of_isName {component : Text} (h : IsName component) :
    position.step component = ⟨position.ups, component :: position.names⟩ := by
  obtain ⟨hempty, hdot, hdots⟩ := h
  unfold step
  rw [if_neg (not_or.2 ⟨hempty, hdot⟩), if_neg hdots]

theorem walk_of_isName {components : List Text} (h : ∀ c ∈ components, IsName c) :
    position.walk components = ⟨position.ups, components.reverse ++ position.names⟩ := by
  induction components generalizing position with
  | nil => rfl
  | cons c components ih =>
    obtain ⟨hc, hrest⟩ := List.forall_mem_cons.1 h
    show (position.step c).walk components = _
    rw [step_of_isName position hc, ih _ hrest]
    simp

theorem ups_le_step (component : Text) : position.ups ≤ (position.step component).ups := by
  by_cases hsame : component = [] ∨ component = "."
  · have hstep : position.step component = position := if_pos hsame
    exact Nat.le_of_eq (congrArg ups hstep).symm
  · by_cases hup : component = ".."
    · unfold step
      rw [if_neg hsame, if_pos hup]
      cases position.names with
      | nil => exact Nat.le_succ _
      | cons last outer => exact Nat.le_refl _
    · obtain ⟨hempty, hdot⟩ := not_or.1 hsame
      exact Nat.le_of_eq (congrArg ups (step_of_isName position ⟨hempty, hdot, hup⟩)).symm

/-- A path never gets back below the highest directory that it has climbed to. -/
theorem ups_le_walk (components : List Text) : position.ups ≤ (position.walk components).ups := by
  induction components generalizing position with
  | nil => exact Nat.le_refl _
  | cons c components ih => exact Nat.le_trans (position.ups_le_step c) (ih _)

end Position

/-! ## Paths in the build directory -/

/-- The variable that stands for the build directory. -/
def buildVariable : Text := "$builddir"

/-- The components of a path, seen from the build directory. -/
def Path.steps (path : Path) : List Text := Text.splitOn '/' (Text.replaceAll buildVariable "." path)

/-- The file that a path names, seen from the build directory. -/
def positionOf (path : Path) : Position := Position.start.walk path.steps

/-- Whether a path is never above the build directory, however far it is followed. -/
def StaysBelow (path : Path) : Prop := ∀ before, before <+: path.steps → (Position.start.walk before).ups = 0

theorem Path.steps_append_slash (first second : Path) :
    Path.steps (first ++ '/' :: second) = Path.steps first ++ Path.steps second := by
  unfold Path.steps
  rw [Text.replaceAll_append_cons (by decide) (by decide), Text.splitOn_eq, List.splitOn_append_cons_self,
    Text.splitOn_eq, Text.splitOn_eq]

theorem positionOf_builtPath (name : Path) : positionOf (builtPath name) = positionOf name := by
  have hpath : builtPath name = buildVariable ++ '/' :: name := rfl
  have hvariable : Path.steps buildVariable = [['.']] := by decide
  unfold positionOf
  rw [hpath, Path.steps_append_slash, hvariable]
  rfl

theorem staysBelow_iff {path : Path} : StaysBelow path ↔ (positionOf path).ups = 0 := by
  refine ⟨fun h => h _ List.prefix_rfl, fun h before hbefore => ?_⟩
  obtain ⟨after, hsteps⟩ := hbefore
  have hle := (Position.start.walk before).ups_le_walk after
  rw [← Position.walk_append, hsteps] at hle
  exact Nat.le_zero.1 (Nat.le_trans hle (Nat.le_of_eq h))

end CprojNinja
