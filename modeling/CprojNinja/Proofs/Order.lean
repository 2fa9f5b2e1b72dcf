import Mathlib.Data.List.Induction

/-!
# Members judged with those before them

What is said of the sources of a project and of the statements of a build file often depends on order: an object file
must not be that of an earlier source, a rule must stand before the edges that use it. All of these say something of
every member of a list together with the members before it, so the quantifier is named once and taken apart here.
-/

namespace CprojNinja

variable {α : Type}

/-- Every member of the list is as `q` asks, given the members before it. -/
def EachAfter (q : List α → α → Prop) (xs : List α) : Prop :=
  ∀ before x after, xs = before ++ x :: after → q before x

variable {q : List α → α → Prop} {xs ys : List α} {x : α}

theorem eachAfter_nil : EachAfter q [] := by
  intro before x after h
  exact absurd h (by simp)

/-- The members of the second part are judged with the whole first part before them. -/
theorem eachAfter_append :
    EachAfter q (xs ++ ys) ↔ EachAfter q xs ∧ EachAfter (fun before y => q (xs ++ before) y) ys := by
  constructor
  · intro h
    refine ⟨fun before x after hx => ?_, fun before y after hy => ?_⟩
    · exact h before x (after ++ ys) (by simp [hx])
    · exact h (xs ++ before) y after (by simp [hy])
  · rintro ⟨hxs, hys⟩ before x after h
    rcases List.append_eq_append_iff.1 h with ⟨mid, hb, hy⟩ | ⟨mid, hx, hy⟩
    · rw [hb]
      exact hys mid x after hy
    · cases mid with
      | nil =>
        have hb : before = xs := by simpa using hx.symm
        rw [hb]
        simpa using hys [] x after (by simpa using hy.symm)
      | cons y mid =>
        obtain ⟨rfl, -⟩ := List.cons.inj hy
        exact hxs before x mid hx

@[simp] theorem eachAfter_singleton : EachAfter q [x] ↔ q [] x := by
  constructor
  · intro h
    exact h [] x [] rfl
  · intro h before y after hy
    obtain ⟨rfl, hy⟩ := List.append_eq_singleton_iff.1 hy.symm |>.resolve_right (by simp)
    obtain ⟨rfl, -⟩ := List.cons.inj hy
    exact h

/-- The last member is judged with all others before it. -/
theorem eachAfter_concat : EachAfter q (xs ++ [x]) ↔ EachAfter q xs ∧ q xs x := by
  rw [eachAfter_append, eachAfter_singleton, List.append_nil]

theorem eachAfter_cons : EachAfter q (x :: xs) ↔ q [] x ∧ EachAfter (fun before y => q (x :: before) y) xs := by
  rw [← List.singleton_append, eachAfter_append, eachAfter_singleton]
  rfl

/-- If some member is not as asked, there is a first one that is not. -/
theorem exists_first_of_not_eachAfter (h : ¬ EachAfter q xs) :
    ∃ before x after, xs = before ++ x :: after ∧ EachAfter q before ∧ ¬ q before x := by
  induction xs using List.reverseRecOn with
  | nil => exact absurd eachAfter_nil h
  | append_singleton xs x ih =>
    by_cases hxs : EachAfter q xs
    · exact ⟨xs, x, [], rfl, hxs, fun hx => h (eachAfter_concat.2 ⟨hxs, hx⟩)⟩
    · obtain ⟨before, y, after, rfl, hbefore, hy⟩ := ih hxs
      exact ⟨before, y, after ++ [x], by simp, hbefore, hy⟩

end CprojNinja
