import CprojNinja.Proofs.Cuts
import CprojNinja.Proofs.LogicalLines

/-!
# Line breaks

A text that is too wide for one line is broken at blanks, and each line but the last one ends in a continuation. Where
the next break is looked for in what is left of the text, with the room that the indentation of the next line leaves.
Main statement: the places found in that way are places of the whole text. A break never stands behind an odd number of
dollars there, it is the last one that keeps its line within the width if there is any, and a line that is too wide has
no place for a break.
-/

namespace CprojNinja.Ninja

open Text (byteWidth)

/-! ## Places of the whole text -/

/-- Whether a text may be broken behind so many bytes: a blank stands there, behind an even number of dollars. -/
def MayBreakAt (s : Text) (i : Nat) : Prop :=
  ∃ before after, s = before ++ ' ' :: after ∧ Even (dollarsAtEnd before) ∧ byteWidth before = i

theorem mayBreakAt_iff {s : Text} {i : Nat} : MayBreakAt s i ↔ CutsAt false s i := by
  unfold MayBreakAt CutsAt
  simp only [← isWhole_iff_even]
  rfl

/-- The dollars of what stands before go on into the rest, and so do the positions. -/
theorem cutsAt_append {odd : Bool} (start s : Text) (i : Nat) :
    CutsAt odd (start ++ s) (byteWidth start + i) ↔ CutsAt (start.foldl oddDollars odd) s i := by
  induction start generalizing odd with
  | nil => simp
  | cons c start ih =>
    have hsize := c.utf8Size_pos
    rw [List.cons_append, cutsAt_cons, Text.byteWidth_cons, List.foldl_cons, ← ih]
    constructor
    · rintro (⟨-, hzero⟩ | ⟨j, hj, hi⟩)
      · omega
      · have hrest : j = byteWidth start + i := by omega
        rwa [hrest] at hj
    · intro h
      exact Or.inr ⟨byteWidth start + i, h, by omega⟩

/-! ## One break -/

section Break

variable {available : Nat} {s before after : Text}

theorem cutsAt_of_cut? (h : cut? available s = some (before, after)) :
    IsLastBelow (CutsAt false s) available (some (byteWidth before)) ∨
      IsLastBelow (CutsAt false s) available none ∧ IsFirstFrom (CutsAt false s) available (some (byteWidth before)) := by
  have hlast := isLastBelow_lastCut? available false s
  have hfirst := isFirstFrom_firstCut? available false s
  rcases Option.or_eq_some_iff.1 h with hcut | ⟨hnone, hcut⟩
  · rw [hcut] at hlast
    exact Or.inl hlast
  · rw [hnone] at hlast
    rw [hcut] at hfirst
    exact Or.inr ⟨hlast, hfirst⟩

theorem not_cutsAt_of_cut? (h : cut? available s = none) (i : Nat) : ¬ CutsAt false s i := by
  intro hi
  have hlast := isLastBelow_lastCut? available false s
  have hfirst := isFirstFrom_firstCut? available false s
  obtain ⟨hnone, hnone'⟩ := Option.or_eq_none_iff.1 h
  rw [hnone] at hlast
  rw [hnone'] at hfirst
  exact absurd (hfirst i hi) (Nat.not_lt.2 (hlast i hi))

end Break

/-! ## Contents -/

section Contents

variable {lead nextLead : Nat} {s content : Text} {before behind : List Text}

/-- A text is either one line, or it is broken and its other lines are those of the rest. -/
theorem contents_eq_cons (h : contents lead nextLead s = content :: behind) :
    (behind = [] ∧ content = s ∧
        (lead + byteWidth s ≤ lineWidth ∨ cut? (lineWidth - lead - continuation.length) s = none)) ∨
      (lineWidth < lead + byteWidth s ∧ ∃ after,
        cut? (lineWidth - lead - continuation.length) s = some (content, after) ∧
          contents nextLead nextLead after = behind) := by
  unfold contents at h
  split at h
  · next hfits =>
    obtain ⟨rfl, rfl⟩ := List.cons.inj h
    exact Or.inl ⟨rfl, rfl, Or.inl hfits⟩
  · next hwide =>
    split at h
    · next hcut =>
      obtain ⟨rfl, rfl⟩ := List.cons.inj h
      exact Or.inl ⟨rfl, rfl, Or.inr hcut⟩
    · next first after hcut =>
      obtain ⟨rfl, rfl⟩ := List.cons.inj h
      exact Or.inr ⟨Nat.not_le.1 hwide, after, hcut, rfl⟩

/-- What stands before a line: the contents of the lines before it, each with the blank at which the text is broken. -/
def textBefore (before : List Text) : Text := before.flatMap (· ++ [' '])

theorem isWhole_textBefore (before : List Text) : IsWhole (textBefore before) :=
  isWhole_flatMap fun c _ => isWhole_concat c (by decide)

theorem joinWith_append_cons (before : List Text) (content : Text) (behind : List Text) :
    Text.joinWith " " (before ++ content :: behind) = textBefore before ++ Text.joinWith " " (content :: behind) := by
  unfold Text.joinWith textBefore
  induction before with
  | nil => rfl
  | cons c before ih =>
    rw [List.cons_append, List.intercalate_cons_of_ne_nil (by simp), ih, List.flatMap_cons]
    simp only [List.append_assoc]
    rfl

theorem mem_joinWith {parts : List Text} {part : Text} {c : Char} (hpart : part ∈ parts) (hc : c ∈ part) :
    c ∈ Text.joinWith " " parts := by
  obtain ⟨before, behind, rfl⟩ := List.append_of_mem hpart
  rw [joinWith_append_cons]
  apply List.mem_append_right
  cases behind with
  | nil => simpa [Text.joinWith] using hc
  | cons next behind =>
    rw [Text.joinWith_cons_cons]
    exact List.mem_append_left _ hc

/-- From each line on, the lines are those of what is left of the text there. -/
theorem contents_of_append_cons (h : contents lead nextLead s = before ++ content :: behind) :
    contents (if before = [] then lead else nextLead) nextLead (Text.joinWith " " (content :: behind)) =
      content :: behind := by
  induction before generalizing lead s with
  | nil =>
    have hs := joinWith_contents lead nextLead s
    rw [h, List.nil_append] at hs
    rw [if_pos rfl, hs]
    exact h
  | cons c before ih =>
    rcases contents_eq_cons h with ⟨hnil, -⟩ | ⟨-, after, -, hafter⟩
    · exact absurd hnil (by simp)
    · have hrest := ih hafter
      rwa [ite_self] at hrest

end Contents

/-! ## Lines -/

/-- The indentation of a line behind some others. -/
def leadBehind (depth : Nat) (before : List Text) : Nat := if before = [] then 2 * depth else 2 * (depth + 2)

/-- The line of a content, which goes on if there are contents behind it. -/
def lineOf (lead : Nat) (content : Text) (behind : List Text) : Text :=
  indentation lead ++ content ++ if behind = [] then [] else continuation

/-- The lines of some contents. -/
def linesOf (lead nextLead : Nat) : List Text → List Text
  | [] => []
  | content :: behind => lineOf lead content behind :: linesOf nextLead nextLead behind

theorem joinLines_eq_flatMap (lead nextLead : Nat) (contents : List Text) :
    joinLines lead nextLead contents = (linesOf lead nextLead contents).flatMap (· ++ ['\n']) := by
  induction contents generalizing lead with
  | nil => rfl
  | cons content behind ih =>
    cases behind with
    | nil => simp [joinLines, linesOf, lineOf]
    | cons next behind =>
      have hnext : next :: behind ≠ [] := List.cons_ne_nil _ _
      have hline : lineOf lead content (next :: behind) = indentation lead ++ content ++ continuation := by
        rw [lineOf, if_neg hnext]
      rw [joinLines_cons _ _ _ hnext, ih]
      show _ = lineOf lead content (next :: behind) ++ ['\n'] ++
        (linesOf nextLead nextLead (next :: behind)).flatMap (· ++ ['\n'])
      rw [hline]
      rfl

theorem splitOn_flatMap_feed {lines : List Text} (h : ∀ line ∈ lines, '\n' ∉ line) :
    Text.splitOn '\n' (lines.flatMap (· ++ ['\n'])) = lines ++ [[]] := by
  rw [Text.splitOn_eq]
  induction lines with
  | nil => rfl
  | cons line lines ih =>
    obtain ⟨hline, hlines⟩ := List.forall_mem_cons.1 h
    have hfirst : (line :: lines).flatMap (· ++ ['\n']) = line ++ '\n' :: lines.flatMap (· ++ ['\n']) := by simp
    rw [hfirst, List.splitOn_append_cons_self_of_not_mem hline, ih hlines, List.cons_append]

theorem length_linesOf (lead nextLead : Nat) (contents : List Text) :
    (linesOf lead nextLead contents).length = contents.length := by
  induction contents generalizing lead with
  | nil => rfl
  | cons content behind ih => rw [linesOf, List.length_cons, List.length_cons, ih]

theorem getElem?_linesOf (lead nextLead : Nat) (before : List Text) (content : Text) (behind : List Text) :
    (linesOf lead nextLead (before ++ content :: behind))[before.length]? =
      some (lineOf (if before = [] then lead else nextLead) content behind) := by
  induction before generalizing lead with
  | nil => rfl
  | cons c before ih =>
    rw [List.cons_append, linesOf, List.length_cons, List.getElem?_cons_succ, ih, ite_self]
    rfl

theorem feed_not_mem_linesOf {lead nextLead : Nat} {contents : List Text} (h : ∀ c ∈ contents, '\n' ∉ c) :
    ∀ line ∈ linesOf lead nextLead contents, '\n' ∉ line := by
  induction contents generalizing lead with
  | nil => simp [linesOf]
  | cons content behind ih =>
    obtain ⟨hcontent, hbehind⟩ := List.forall_mem_cons.1 h
    have hlead : '\n' ∉ indentation lead := by
      unfold indentation
      simp
    have hend : '\n' ∉ (if behind = [] then [] else continuation : Text) := by
      split <;> decide
    rw [linesOf, List.forall_mem_cons]
    exact ⟨List.not_mem_append (List.not_mem_append hlead hcontent) hend, ih hbehind⟩

theorem byteWidth_indentation (lead : Nat) : byteWidth (indentation lead) = lead := by
  unfold indentation
  induction lead with
  | zero => rfl
  | succ lead ih =>
    have hblank : ' '.utf8Size = 1 := rfl
    rw [List.replicate_succ, Text.byteWidth_cons, ih, hblank]
    omega

/-- What is promised of a line of a text, given the contents of the lines before and behind it. -/
structure IsLine (depth : Nat) (s : Text) (before : List Text) (content : Text) (behind : List Text)
    (line : Text) : Prop where
  /-- A line is its content behind its indentation, and ends in a continuation if it is not the last one. -/
  line_eq : line = lineOf (leadBehind depth before) content behind
  /-- The text is broken only where it is too wide. -/
  wide : behind ≠ [] → lineWidth < leadBehind depth before + byteWidth (Text.joinWith " " (content :: behind))
  /-- It is broken at a blank behind an even number of dollars, counted in the whole text. -/
  mayBreak : behind ≠ [] → MayBreakAt s (byteWidth (textBefore before) + byteWidth content)
  /-- Of these blanks it is the last one that leaves room for the continuation, or else the first one of all. -/
  best : behind ≠ [] →
    let places := fun i => MayBreakAt s (byteWidth (textBefore before) + i)
    let room := lineWidth - leadBehind depth before - continuation.length
    IsLastBelow places room (some (byteWidth content)) ∨
      IsLastBelow places room none ∧ IsFirstFrom places room (some (byteWidth content))
  /-- A line that is too wide could not have been broken. -/
  unbreakable : lineWidth < byteWidth line → ∀ i < byteWidth content,
    ¬ MayBreakAt s (byteWidth (textBefore before) + i)

section Layout

variable {depth : Nat} {s content : Text} {before behind : List Text}

theorem byteWidth_lineOf (lead : Nat) (content : Text) (behind : List Text) :
    byteWidth (lineOf lead content behind) = lead + byteWidth content + if behind = [] then 0 else 2 := by
  have hcontinuation : byteWidth continuation = 2 := rfl
  unfold lineOf
  rw [Text.byteWidth_append, Text.byteWidth_append, byteWidth_indentation]
  split
  · rfl
  · rw [hcontinuation]

/-- Places in what is left of a text are places of the whole text. -/
theorem mayBreakAt_textBefore (hs : s = textBefore before ++ Text.joinWith " " (content :: behind)) :
    (fun i => MayBreakAt s (byteWidth (textBefore before) + i)) =
      CutsAt false (Text.joinWith " " (content :: behind)) := by
  have hwhole : (textBefore before).foldl oddDollars false = false := isWhole_textBefore before
  funext i
  rw [mayBreakAt_iff, hs, cutsAt_append, hwhole]

theorem isLine_contents (h : contents (2 * depth) (2 * (depth + 2)) s = before ++ content :: behind) :
    IsLine depth s before content behind (lineOf (leadBehind depth before) content behind) := by
  have hs : s = textBefore before ++ Text.joinWith " " (content :: behind) := by
    rw [← joinWith_append_cons, ← h, joinWith_contents]
  have hplaces := mayBreakAt_textBefore hs
  have hplace (i : Nat) : MayBreakAt s (byteWidth (textBefore before) + i) ↔
      CutsAt false (Text.joinWith " " (content :: behind)) i := iff_of_eq (congrFun hplaces i)
  have hcontinuation : continuation.length = 2 := rfl
  have hwidth := byteWidth_lineOf (leadBehind depth before) content behind
  rcases contents_eq_cons (contents_of_append_cons h) with ⟨rfl, hcontent, hlast⟩ | ⟨hwide, after, hcut, -⟩
  · refine ⟨rfl, fun hne => absurd rfl hne, fun hne => absurd rfl hne, fun hne => absurd rfl hne, ?_⟩
    intro hline i _ hi
    rw [hwidth, if_pos rfl, hcontent] at hline
    rcases hlast with hfits | hnone
    · unfold leadBehind at hline
      omega
    · exact not_cutsAt_of_cut? hnone i ((hplace i).1 hi)
  · have hbest := cutsAt_of_cut? hcut
    have hcuts : CutsAt false (Text.joinWith " " (content :: behind)) (byteWidth content) := by
      rcases hbest with hlast | ⟨-, hfirst⟩
      · exact hlast.2.1
      · exact hfirst.2.1
    refine ⟨rfl, fun _ => hwide, fun _ => (hplace _).2 hcuts, ?_, ?_⟩
    · intro _
      rw [hplaces]
      exact hbest
    · intro hline i hi hplaced
      rcases hbest with hlast | ⟨hnone, hfirst⟩
      · have hroom : byteWidth content < lineWidth - leadBehind depth before - continuation.length := hlast.1
        split at hwidth <;> omega
      · -- nothing stands before the first place of all
        have hplaced' := (hplace i).1 hplaced
        exact absurd (hfirst.2.2 i hplaced' (hnone i hplaced')) (Nat.not_le.2 hi)

/-- The lines of a text that was laid out: their contents with single blanks between them are the text, and each line
keeps what is promised of it. -/
theorem lines_layout (depth : Nat) {s : Text} (hs : '\n' ∉ s) :
    ∃ contents lines : List Text, Text.joinWith " " contents = s ∧
      Text.splitOn '\n' (layout depth s) = lines ++ [[]] ∧ lines.length = contents.length ∧
      ∀ before content behind, contents = before ++ content :: behind →
        ∃ line, lines[before.length]? = some line ∧ IsLine depth s before content behind line := by
  have hfeed : ∀ c ∈ contents (2 * depth) (2 * (depth + 2)) s, '\n' ∉ c := by
    intro c hc hmem
    apply hs
    rw [← joinWith_contents (2 * depth) (2 * (depth + 2)) s]
    exact mem_joinWith hc hmem
  refine ⟨contents (2 * depth) (2 * (depth + 2)) s, linesOf (2 * depth) (2 * (depth + 2)) _, joinWith_contents _ _ s,
    ?_, length_linesOf _ _ _, ?_⟩
  · unfold layout
    dsimp only
    rw [joinLines_eq_flatMap, splitOn_flatMap_feed (feed_not_mem_linesOf hfeed)]
  · intro before content behind h
    refine ⟨_, ?_, isLine_contents h⟩
    rw [h]
    exact getElem?_linesOf _ _ before content behind

/-- Broken early, at the only blank that leaves room, and then late, at the first one that is not escaped. -/
theorem lines_layout_wide :
    '\n' ∉ ("-T " ++ List.replicate 60 'é' ++ "$ b c" : Text) ∧
      layout 0 ("-T " ++ List.replicate 60 'é' ++ "$ b c") =
        "-T $\n    " ++ List.replicate 60 'é' ++ "$ b $\n    c\n" ∧
      ∃ contents lines : List Text, Text.joinWith " " contents = "-T " ++ List.replicate 60 'é' ++ "$ b c" ∧
        Text.splitOn '\n' (layout 0 ("-T " ++ List.replicate 60 'é' ++ "$ b c")) = lines ++ [[]] ∧
        lines.length = contents.length ∧
        ∀ before content behind, contents = before ++ content :: behind →
          ∃ line, lines[before.length]? = some line ∧
            IsLine 0 ("-T " ++ List.replicate 60 'é' ++ "$ b c") before content behind line :=
  ⟨by decide, by decide +kernel, lines_layout 0 (by decide)⟩

end Layout

end CprojNinja.Ninja
