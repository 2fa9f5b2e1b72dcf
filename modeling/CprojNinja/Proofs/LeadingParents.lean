import CprojNinja.Proofs.ObjectPlaces
import CprojNinja.Proofs.Slices
import Mathlib.Logic.Relation

/-!
# Parent directories at the start of a path

Parent directories are dropped in rounds. A round looks at two bytes, which have to be dots, and takes three, so it may
end inside a name, and even inside a character; what cannot be cut counts as empty. The rounds stop where the two dots
are missing.

Main statement: what is left is an end of the path without dots at its start, and just what stands behind the parent
directories if the path is put together from some of them and such an end.
-/

namespace CprojNinja

namespace Path

open Relation (ReflTransGen)
open Text (byteWidth from?)

/-! ## Rounds -/

/-- One round: from a path that starts with two dots to what stands behind its third byte, if a character starts there
or the path ends there, and else to nothing. -/
def Round (path next : Path) : Prop := ".." <+: path ∧ next = (from? 3 path).getD []

theorem not_prefix_dropParents (path : Path) : ¬ ".." <+: dropParents path := by
  fun_induction dropParents path with
  | case1 c rest hc ih => exact ih
  | case2 c rest hc => exact fun h => absurd h.length_le (by decide)
  | case3 => exact fun h => absurd h.length_le (by decide)
  | case4 path h h' =>
    rintro ⟨rest, rfl⟩
    cases rest with
    | nil => exact h' rfl
    | cons c rest => exact h c rest rfl

/-- Two dots are taken together with a character of one byte, and everything is taken if there is none. -/
theorem round_dropParents (path : Path) : ReflTransGen Round path (dropParents path) := by
  fun_induction dropParents path with
  | case1 c rest hc ih =>
    have hround : Round ('.' :: '.' :: c :: rest) rest := by
      refine ⟨⟨c :: rest, rfl⟩, ?_⟩
      rw [from?_three_of_byte hc]
      rfl
    exact .head hround ih
  | case2 c rest hc =>
    have hround : Round ('.' :: '.' :: c :: rest) [] := by
      refine ⟨⟨c :: rest, rfl⟩, ?_⟩
      rw [from?_three_of_longer hc]
      rfl
    exact .single hround
  | case3 => exact .single ⟨List.prefix_rfl, rfl⟩
  | case4 path => exact .refl

/-- Nothing is left if the third byte is missing or the first one of a longer character. -/
theorem dropParents_eq_nil {path : Path} (h : ".." <+: path)
    (hthird : byteWidth path < 3 ∨ ∃ c rest, path = '.' :: '.' :: c :: rest ∧ 1 < c.utf8Size) :
    dropParents path = [] := by
  rcases hthird with hwidth | ⟨c, rest, rfl, hc⟩
  · obtain ⟨behind, rfl⟩ := h
    have hbehind : behind = [] := by
      cases behind with
      | nil => rfl
      | cons c rest =>
        have hdots : byteWidth ".." = 2 := rfl
        have hsize := c.utf8Size_pos
        rw [Text.byteWidth_append, hdots, Text.byteWidth_cons] at hwidth
        omega
    rw [hbehind]
    rfl
  · exact if_neg (Nat.ne_of_gt hc)

/-! ## What is left -/

/-- Of every path an end without two dots at its start is left, which the rounds reach and where they stop; dropping
again changes nothing, nor does dropping from a path without the dots. What stands behind any number of parent
directories is left whole, unless it starts with two dots itself. And if such a path has no third byte, or a longer
character starts with it, then nothing is left: the cut inside the character does not take place. -/
theorem dropParents_drops_leading (path : Path) :
    (dropParents path <:+ path ∧ ¬ ".." <+: dropParents path) ∧
      dropParents (dropParents path) = dropParents path ∧
      (¬ ".." <+: path → dropParents path = path) ∧
      (∀ n, ¬ ".." <+: path → dropParents (parents n ++ path) = path) ∧
      (".." <+: path → (byteWidth path < 3 ∨ ∃ c rest, path = '.' :: '.' :: c :: rest ∧ 1 < c.utf8Size) →
        dropParents path = []) ∧
      (ReflTransGen Round path (dropParents path) ∧ ∀ next, ¬ Round (dropParents path) next) := by
  have hstops := not_prefix_dropParents path
  refine ⟨⟨dropParents_suffix path, hstops⟩, dropParents_of_not_prefix hstops, dropParents_of_not_prefix, ?_,
    dropParents_eq_nil, round_dropParents path, fun next hround => hstops hround.1⟩
  intro n hpath
  rw [dropParents_parents_append, dropParents_of_not_prefix hpath]

-- the third byte need not be a slash, and a name of two dots and `é` is lost as a whole
example : dropParents "..a../../b" = ("b" : Path) ∧ dropParents "..é/b" = [] := by decide

end Path

end CprojNinja
