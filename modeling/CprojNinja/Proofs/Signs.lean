import CprojNinja.Ninja.Layout

/-!
# Signs

How ninja reads a text. A dollar and the character behind it are read together, so a text is first taken as a list of
signs: plain characters and escaped ones. After that nothing has to be said about dollars and how many of them there
are: words end at plain blanks, and a line goes on in the next one where the line feed itself is escaped.

The main statement is that the layout of lines cannot be seen by a reader: whoever joins the lines of a text that was
laid out gets the signs of the text back. It rests on two facts. A cut never falls between a dollar and what it escapes,
and where words have single blanks between them, the blanks that are lost at the start of a line are those of its
indentation.
-/

namespace CprojNinja.Ninja

/-- What is read as one unit. -/
inductive Sign where
  /-- A character that stands for itself. -/
  | plain (c : Char)
  /-- A dollar and the character behind it. -/
  | escaped (c : Char)
  deriving Repr, DecidableEq

namespace Sign

/-- The blank between words. -/
def blank : Sign := plain ' '

/-- What a sign means in a path. A dollar is undone where it escapes a blank or a colon; any other one is left to the
variables. -/
def meaning : Sign → Text
  | plain c => [c]
  | escaped c => if c = ' ' ∨ c = ':' then [c] else ['$', c]

end Sign

/-- The signs of a text, where `pending` tells whether a dollar was read last that escapes what follows. -/
def signsAfter (pending : Bool) : Text → List Sign
  | [] => if pending then [.plain '$'] else []
  | c :: s =>
    if pending then .escaped c :: signsAfter false s
    else if c = '$' then signsAfter true s
    else .plain c :: signsAfter false s

/-- The signs of a text. -/
def signs (s : Text) : List Sign := signsAfter false s

/-- The signs that are left when lines that go on are joined: the escaped line feed is dropped together with all blanks
at the start of the next line. -/
def joined : List Sign → List Sign
  | [] => []
  | g :: gs => if g = .escaped '\n' then (joined gs).dropWhile (· = .blank) else g :: joined gs

/-! ## Whole texts -/

/-- Whether no dollar at the end of a text is left to escape what follows. -/
def IsWhole (s : Text) : Prop := s.foldl oddDollars false = false

theorem signsAfter_append {pending : Bool} {s : Text} (hs : s.foldl oddDollars pending = false) (t : Text) :
    signsAfter pending (s ++ t) = signsAfter pending s ++ signs t := by
  induction s generalizing pending with
  | nil =>
    cases (hs : pending = false)
    rfl
  | cons c s ih =>
    rw [List.foldl_cons] at hs
    cases pending with
    | true =>
      have hs' : s.foldl oddDollars false = false := by simpa [oddDollars] using hs
      simp [signsAfter, ih hs']
    | false =>
      by_cases hc : c = '$'
      · have hs' : s.foldl oddDollars true = false := by simpa [oddDollars, hc] using hs
        simp [signsAfter, hc, ih hs']
      · have hs' : s.foldl oddDollars false = false := by simpa [oddDollars, hc] using hs
        simp [signsAfter, hc, ih hs']

/-- A whole text is read without a look at what follows it. -/
theorem signs_append {s : Text} (hs : IsWhole s) (t : Text) : signs (s ++ t) = signs s ++ signs t :=
  signsAfter_append hs t

@[simp] theorem signs_nil : signs [] = [] := rfl

theorem signs_cons {c : Char} (hc : c ≠ '$') (s : Text) : signs (c :: s) = .plain c :: signs s := by
  simp [signs, signsAfter, hc]

theorem isWhole_append {s t : Text} (hs : IsWhole s) (ht : IsWhole t) : IsWhole (s ++ t) := by
  unfold IsWhole at *
  rw [List.foldl_append, hs, ht]

/-- What follows a blank is whole if the text is. -/
theorem isWhole_after {before after : Text} (h : IsWhole (before ++ ' ' :: after)) : IsWhole after := by
  unfold IsWhole at *
  rw [List.foldl_append, List.foldl_cons] at h
  simpa [oddDollars] using h

/-- A text without a dollar is whole, and each of its characters is a sign. -/
theorem isWhole_of_not_mem {s : Text} (hs : '$' ∉ s) : IsWhole s ∧ signs s = s.map .plain := by
  induction s with
  | nil => exact ⟨rfl, rfl⟩
  | cons c s ih =>
    simp only [List.mem_cons, not_or] at hs
    obtain ⟨hwhole, hsigns⟩ := ih hs.2
    refine ⟨?_, ?_⟩
    · have hstep : oddDollars false c = false := by simp [oddDollars, Ne.symm hs.1]
      unfold IsWhole
      rw [List.foldl_cons, hstep]
      exact hwhole
    · rw [signs_cons (Ne.symm hs.1), hsigns, List.map_cons]

/-! ## Cuts -/

theorem foldl_of_lastCut? {limit : Nat} {odd : Bool} {s before after : Text}
    (h : lastCut? limit odd s = some (before, after)) : before.foldl oddDollars odd = false := by
  induction s generalizing limit odd before with
  | nil => cases h
  | cons c s ih =>
    unfold lastCut? at h
    split at h
    · cases h
    · split at h
      · next hs =>
        cases h
        rw [List.foldl_cons]
        exact ih hs
      · split at h
        · next hc =>
          cases h
          simpa using (Bool.and_eq_true_iff.1 hc).2
        · cases h

theorem foldl_of_firstCut? {skipped : Nat} {odd : Bool} {s before after : Text}
    (h : firstCut? skipped odd s = some (before, after)) : before.foldl oddDollars odd = false := by
  induction s generalizing skipped odd before with
  | nil => cases h
  | cons c s ih =>
    unfold firstCut? at h
    split at h
    · next hc =>
      cases h
      simp only [Bool.and_eq_true, Bool.not_eq_true'] at hc
      exact hc.1.2
    · obtain ⟨_, hs, he⟩ := Option.map_eq_some_iff.1 h
      cases he
      rw [List.foldl_cons]
      exact ih hs

/-- A cut never falls between a dollar and what it escapes. -/
theorem isWhole_of_cut? {available : Nat} {s before after : Text} (h : cut? available s = some (before, after)) :
    IsWhole before := by
  rcases Option.or_eq_some_iff.1 h with h | ⟨_, h⟩
  · exact foldl_of_lastCut? h
  · exact foldl_of_firstCut? h

/-! ## Joined lines -/

/-- Nothing is joined where no line feed is escaped. -/
theorem joined_append {gs : List Sign} (hgs : Sign.escaped '\n' ∉ gs) (hs : List Sign) :
    joined (gs ++ hs) = gs ++ joined hs := by
  induction gs with
  | nil => rfl
  | cons g gs ih =>
    simp only [List.mem_cons, not_or] at hgs
    rw [List.cons_append, joined, if_neg (Ne.symm hgs.1), ih hgs.2, List.cons_append]

/-- Signs in which words have single blanks between them and no line goes on. -/
structure IsTidy (gs : List Sign) : Prop where
  /-- No line feed is escaped. -/
  unbroken : Sign.escaped '\n' ∉ gs
  /-- No word is empty. -/
  single : [] ∉ gs.splitOn .blank

theorem isTidy_append_blank {gs hs : List Sign} : IsTidy (gs ++ .blank :: hs) ↔ IsTidy gs ∧ IsTidy hs := by
  have hblank : Sign.escaped '\n' ≠ .blank := by decide
  constructor
  · rintro ⟨hunbroken, hsingle⟩
    simp only [List.mem_append, List.mem_cons, not_or] at hunbroken
    rw [List.splitOn_append_cons_self, List.mem_append, not_or] at hsingle
    exact ⟨⟨hunbroken.1, hsingle.1⟩, ⟨hunbroken.2.2, hsingle.2⟩⟩
  · rintro ⟨hgs, hhs⟩
    refine ⟨?_, ?_⟩
    · simp only [List.mem_append, List.mem_cons, not_or]
      exact ⟨hgs.unbroken, hblank, hhs.unbroken⟩
    · rw [List.splitOn_append_cons_self, List.mem_append, not_or]
      exact ⟨hgs.single, hhs.single⟩

/-- Tidy signs do not start with a blank. -/
theorem IsTidy.dropWhile_append {gs : List Sign} (h : IsTidy gs) (tail : List Sign) :
    (gs ++ tail).dropWhile (· = .blank) = gs ++ tail := by
  cases gs with
  | nil => exact absurd List.mem_cons_self h.single
  | cons g gs =>
    have hg : g ≠ .blank := by
      rintro rfl
      exact h.single (by simp [List.splitOn_cons_eq_if_modifyHead])
    simp [hg]

theorem contents_ne_nil (lead nextLead : Nat) (s : Text) : contents lead nextLead s ≠ [] := by
  unfold contents
  split
  · exact List.cons_ne_nil _ _
  · split <;> exact List.cons_ne_nil _ _

theorem joinLines_cons (lead nextLead : Nat) (content : Text) {rest : List Text} (hrest : rest ≠ []) :
    joinLines lead nextLead (content :: rest) =
      indentation lead ++ content ++ continuation ++ "\n" ++ joinLines nextLead nextLead rest := by
  cases rest with
  | nil => exact absurd rfl hrest
  | cons next rest => rfl

theorem isWhole_indentation (lead : Nat) : IsWhole (indentation lead) ∧
    signs (indentation lead) = List.replicate lead .blank := by
  have h := isWhole_of_not_mem (s := indentation lead) (by simp [indentation])
  refine ⟨h.1, ?_⟩
  rw [h.2]
  simp [indentation, Sign.blank]

/-- Nothing is joined before the end of a whole text, so what follows it may be anything. -/
theorem joined_indentation_append (lead : Nat) {s : Text} (hs : IsWhole s) (hunbroken : Sign.escaped '\n' ∉ signs s)
    (rest : Text) : joined (signs (indentation lead ++ (s ++ rest))) =
      List.replicate lead .blank ++ signs s ++ joined (signs rest) := by
  obtain ⟨hlead, hsigns⟩ := isWhole_indentation lead
  have hline : Sign.escaped '\n' ∉ List.replicate lead Sign.blank ++ signs s := by
    simp only [List.mem_append, List.mem_replicate, not_or]
    exact ⟨fun h => absurd h.2 (by decide), hunbroken⟩
  rw [signs_append hlead, signs_append hs, hsigns, ← List.append_assoc, joined_append hline]

/-- The signs of a line that ends a text. -/
theorem joined_lastLine (lead : Nat) {s : Text} (hs : IsWhole s) (hunbroken : Sign.escaped '\n' ∉ signs s) :
    joined (signs (indentation lead ++ s ++ "\n")) = List.replicate lead .blank ++ signs s ++ [.plain '\n'] := by
  rw [List.append_assoc, joined_indentation_append lead hs hunbroken]
  rfl

/-- A line that goes on is joined to what follows it, less the blanks at its start. -/
theorem joined_brokenLine (lead : Nat) {s : Text} (hs : IsWhole s) (hunbroken : Sign.escaped '\n' ∉ signs s)
    (rest : Text) : joined (signs (indentation lead ++ s ++ continuation ++ "\n" ++ rest)) =
      List.replicate lead .blank ++ signs s ++ .blank :: (joined (signs rest)).dropWhile (· = .blank) := by
  rw [List.append_assoc _ continuation, List.append_assoc _ (continuation ++ _), List.append_assoc,
    joined_indentation_append lead hs hunbroken]
  rfl

/-- The lines of tidy signs are joined to the signs. -/
theorem joined_joinLines (lead nextLead : Nat) {s : Text} (hs : IsWhole s) (ht : IsTidy (signs s)) :
    joined (signs (joinLines lead nextLead (contents lead nextLead s))) =
      List.replicate lead .blank ++ signs s ++ [.plain '\n'] := by
  fun_induction contents lead nextLead s with
  | case1 lead s => exact joined_lastLine lead hs ht.unbroken
  | case2 lead s => exact joined_lastLine lead hs ht.unbroken
  | case3 lead s _ before after hcut _ ih =>
    have hbefore := isWhole_of_cut? hcut
    rw [eq_of_cut? hcut] at hs ht ⊢
    rw [signs_append hbefore, signs_cons (by decide)] at ht
    obtain ⟨htbefore, htafter⟩ := isTidy_append_blank.1 ht
    -- the blanks at the start of the next line are its indentation, because tidy signs have none of their own
    have hrest : (joined (signs (joinLines nextLead nextLead (contents nextLead nextLead after)))).dropWhile
        (· = .blank) = signs after ++ [.plain '\n'] := by
      rw [ih (isWhole_after hs) htafter, List.append_assoc, List.dropWhile_append_of_pos (by simp)]
      exact htafter.dropWhile_append _
    rw [joinLines_cons lead nextLead before (contents_ne_nil _ _ _), joined_brokenLine lead hbefore htbefore.unbroken,
      hrest, signs_append hbefore, signs_cons (by decide)]
    simp [Sign.blank]

end CprojNinja.Ninja
