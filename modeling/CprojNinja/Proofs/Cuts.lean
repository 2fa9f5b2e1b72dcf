import CprojNinja.Proofs.Signs

/-!
# The best place for a cut

A line is cut at a blank that no dollar escapes. Of these places one search takes the last one before a bound and the
other the first one from a bound on. Both searches go through the characters and count bytes as they go; this module
says what they find in terms of the places alone, so that any other search for the same place finds the same.
-/

namespace CprojNinja.Ninja

open Text (byteWidth)

/-! ## The last and the first of some numbers -/

/-- Whether an answer is the last number below a bound that has a property, or there is none. -/
def IsLastBelow (P : Nat → Prop) (bound : Nat) : Option Nat → Prop
  | some i => i < bound ∧ P i ∧ ∀ j, P j → j < bound → j ≤ i
  | none => ∀ j, P j → bound ≤ j

/-- Whether an answer is the first number from a bound on that has a property, or there is none. -/
def IsFirstFrom (P : Nat → Prop) (bound : Nat) : Option Nat → Prop
  | some i => bound ≤ i ∧ P i ∧ ∀ j, P j → bound ≤ j → i ≤ j
  | none => ∀ j, P j → j < bound

section Bounds

variable {P : Nat → Prop} {bound : Nat} {r r' : Option Nat}

theorem IsLastBelow.unique (h : IsLastBelow P bound r) (h' : IsLastBelow P bound r') : r = r' := by
  cases r with
  | none =>
    cases r' with
    | none => rfl
    | some i => exact absurd h'.1 (Nat.not_lt.2 (h i h'.2.1))
  | some i =>
    cases r' with
    | none => exact absurd h.1 (Nat.not_lt.2 (h' i h.2.1))
    | some j => exact congrArg some (Nat.le_antisymm (h'.2.2 i h.2.1 h.1) (h.2.2 j h'.2.1 h'.1))

theorem IsFirstFrom.unique (h : IsFirstFrom P bound r) (h' : IsFirstFrom P bound r') : r = r' := by
  cases r with
  | none =>
    cases r' with
    | none => rfl
    | some i => exact absurd h'.1 (Nat.not_le.2 (h i h'.2.1))
  | some i =>
    cases r' with
    | none => exact absurd h.1 (Nat.not_le.2 (h' i h.2.1))
    | some j => exact congrArg some (Nat.le_antisymm (h.2.2 j h'.2.1 h'.1) (h'.2.2 i h.2.1 h.1))

/-- A lower bound will do if nothing lies between. -/
theorem IsLastBelow.mono {lower : Nat} (h : IsLastBelow P lower r) (hle : lower ≤ bound)
    (hbetween : ∀ j, P j → lower ≤ j → bound ≤ j) : IsLastBelow P bound r := by
  cases r with
  | none => exact fun j hj => hbetween j hj (h j hj)
  | some i =>
    refine ⟨Nat.lt_of_lt_of_le h.1 hle, h.2.1, fun j hj hjbound => ?_⟩
    rcases Nat.lt_or_ge j lower with hjlower | hjlower
    · exact h.2.2 j hj hjlower
    · exact absurd hjbound (Nat.not_lt.2 (hbetween j hj hjlower))

/-- A later bound will do if nothing lies between. -/
theorem IsFirstFrom.mono {later : Nat} (h : IsFirstFrom P later r) (hle : bound ≤ later)
    (hbetween : ∀ j, P j → j < later → j < bound) : IsFirstFrom P bound r := by
  cases r with
  | none => exact fun j hj => hbetween j hj (h j hj)
  | some i =>
    refine ⟨Nat.le_trans hle h.1, h.2.1, fun j hj hjbound => ?_⟩
    rcases Nat.lt_or_ge j later with hjlater | hjlater
    · exact absurd (hbetween j hj hjlater) (Nat.not_lt.2 hjbound)
    · exact h.2.2 j hj hjlater

end Bounds

/-! ## Places for a cut -/

/-- Whether there is a place for a cut behind so many bytes of a text: a blank that no dollar escapes, where `odd` says
whether an odd number of dollars stands right before the text. -/
def CutsAt (odd : Bool) (s : Text) (i : Nat) : Prop :=
  ∃ before after, s = before ++ ' ' :: after ∧ before.foldl oddDollars odd = false ∧ byteWidth before = i

section Searches

variable {odd : Bool} {c : Char} {s : Text} {i : Nat}

theorem not_cutsAt_nil : ¬ CutsAt odd [] i := by
  rintro ⟨before, after, hs, -⟩
  exact absurd hs (by simp)

/-- The places of a longer text: perhaps one right at its start, and those of the rest behind its first character. -/
theorem cutsAt_cons : CutsAt odd (c :: s) i ↔
    (c = ' ' ∧ odd = false) ∧ i = 0 ∨ ∃ j, CutsAt (oddDollars odd c) s j ∧ i = c.utf8Size + j := by
  constructor
  · rintro ⟨before, after, hs, hodd, hi⟩
    cases before with
    | nil =>
      cases hs
      exact Or.inl ⟨⟨rfl, hodd⟩, hi.symm⟩
    | cons d before =>
      cases hs
      exact Or.inr ⟨byteWidth before, ⟨before, after, rfl, hodd, rfl⟩, hi.symm⟩
  · rintro (⟨⟨rfl, rfl⟩, rfl⟩ | ⟨j, ⟨before, after, rfl, hodd, rfl⟩, rfl⟩)
    · exact ⟨[], s, rfl, rfl, rfl⟩
    · exact ⟨c :: before, after, rfl, hodd, rfl⟩

/-- The search backwards finds the last place that leaves a line within the limit. -/
theorem isLastBelow_lastCut? (limit : Nat) (odd : Bool) (s : Text) :
    IsLastBelow (CutsAt odd s) limit ((lastCut? limit odd s).map fun (before, _) => byteWidth before) := by
  induction s generalizing limit odd with
  | nil => exact fun j hj => absurd hj not_cutsAt_nil
  | cons c s ih =>
    have hsize := c.utf8Size_pos
    have hrest := ih (limit - c.utf8Size) (oddDollars odd c)
    unfold lastCut?
    by_cases hlimit : limit = 0
    · rw [if_pos hlimit, hlimit]
      exact fun j _ => Nat.zero_le j
    · rw [if_neg hlimit]
      -- a place further on wins, so the first character counts only if there is none
      cases hcut : lastCut? (limit - c.utf8Size) (oddDollars odd c) s with
      | some cut =>
        rw [hcut] at hrest
        obtain ⟨hbound, hplace, hlast⟩ := hrest
        refine ⟨Nat.add_lt_of_lt_sub' hbound, cutsAt_cons.2 (Or.inr ⟨_, hplace, rfl⟩), fun j hj hjlimit => ?_⟩
        rcases cutsAt_cons.1 hj with ⟨-, rfl⟩ | ⟨k, hk, rfl⟩
        · exact Nat.zero_le _
        · exact Nat.add_le_add_left (hlast k hk (Nat.lt_sub_of_add_lt (Nat.add_comm _ k ▸ hjlimit))) _
      | none =>
        rw [hcut] at hrest
        have hbehind : ∀ k, CutsAt (oddDollars odd c) s k → limit ≤ c.utf8Size + k := fun k hk =>
          Nat.sub_le_iff_le_add'.1 (hrest k hk)
        by_cases hc : c = ' ' ∧ odd = false
        · rw [if_pos (by simpa using hc)]
          refine ⟨Nat.pos_of_ne_zero hlimit, cutsAt_cons.2 (Or.inl ⟨hc, rfl⟩), fun j hj hjlimit => ?_⟩
          rcases cutsAt_cons.1 hj with ⟨-, rfl⟩ | ⟨k, hk, rfl⟩
          · exact Nat.le_refl 0
          · exact absurd hjlimit (Nat.not_lt.2 (hbehind k hk))
        · rw [if_neg (by simpa using hc)]
          intro j hj
          rcases cutsAt_cons.1 hj with ⟨hc', -⟩ | ⟨k, hk, rfl⟩
          · exact absurd hc' hc
          · exact hbehind k hk

/-- The search forwards finds the first place behind what is skipped. -/
theorem isFirstFrom_firstCut? (skipped : Nat) (odd : Bool) (s : Text) :
    IsFirstFrom (CutsAt odd s) skipped ((firstCut? skipped odd s).map fun (before, _) => byteWidth before) := by
  induction s generalizing skipped odd with
  | nil => exact fun j hj => absurd hj not_cutsAt_nil
  | cons c s ih =>
    have hrest := ih (skipped - c.utf8Size) (oddDollars odd c)
    unfold firstCut?
    by_cases hc : (c = ' ' ∧ odd = false) ∧ skipped = 0
    · rw [if_pos (by simpa using hc)]
      exact ⟨Nat.le_of_eq hc.2, cutsAt_cons.2 (Or.inl ⟨hc.1, rfl⟩), fun j _ _ => Nat.zero_le j⟩
    · have hstart : ∀ j, (c = ' ' ∧ odd = false) ∧ j = 0 → j < skipped := fun j hj => by
        rw [hj.2]
        exact Nat.pos_of_ne_zero fun hskipped => hc ⟨hj.1, hskipped⟩
      rw [if_neg (by simpa using hc)]
      cases hcut : firstCut? (skipped - c.utf8Size) (oddDollars odd c) s with
      | some cut =>
        rw [hcut] at hrest
        obtain ⟨hbound, hplace, hfirst⟩ := hrest
        refine ⟨Nat.sub_le_iff_le_add'.1 hbound, cutsAt_cons.2 (Or.inr ⟨_, hplace, rfl⟩), fun j hj hjskipped => ?_⟩
        rcases cutsAt_cons.1 hj with hj | ⟨k, hk, rfl⟩
        · exact absurd (hstart j hj) (Nat.not_lt.2 hjskipped)
        · exact Nat.add_le_add_left (hfirst k hk (Nat.sub_le_iff_le_add'.2 hjskipped)) _
      | none =>
        rw [hcut] at hrest
        intro j hj
        rcases cutsAt_cons.1 hj with hj | ⟨k, hk, rfl⟩
        · exact hstart j hj
        · have hk' := hrest k hk
          omega

end Searches

end CprojNinja.Ninja
