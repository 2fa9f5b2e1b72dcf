import CprojNinja.Proofs.EdgeReading
import Mathlib.Algebra.Group.Nat.Even
import Mathlib.Data.List.Forall2
import Mathlib.Data.List.Induction

/-!
# Logical lines

Ninja reads a file line by line, where a line that ends in an odd number of dollars goes on in the next one. This module
says which lines a file has when it is read so.

Main statement: if no text of a statement holds a line feed or leaves a dollar at its end, then the lines of a file are
those of its statements, one after the other. A binding, an edge and a default statement are one line each, a rule is
one line and one more for each of its bindings, and a line has the words that were written, wherever it was cut. Without
that condition a statement may fall into several lines or run into the next one, because nothing escapes a line feed.
-/

namespace CprojNinja.Ninja

/-! ## Lines of signs -/

/-- The sign that ends a logical line. -/
def feed : Sign := .plain '\n'

/-- The lines of some signs. What follows the last line feed is a line only if there is something. -/
def linesOfSigns (gs : List Sign) : List (List Sign) :=
  let pieces := gs.splitOn feed
  pieces.dropLast ++ pieces.getLast?.toList.filter (· ≠ [])

/-- The logical lines of a text. -/
def logicalLines (s : Text) : List (List Sign) := linesOfSigns (joined (signs s))

theorem linesOfSigns_append_feed (gs hs : List Sign) :
    linesOfSigns (gs ++ feed :: hs) = gs.splitOn feed ++ linesOfSigns hs := by
  have hne : hs.splitOn feed ≠ [] := List.splitOn_ne_nil _ _
  have hlast : (gs.splitOn feed ++ hs.splitOn feed).getLast? = (hs.splitOn feed).getLast? := by
    rw [List.getLast?_append, List.getLast?_eq_some_getLast hne, Option.some_or]
  unfold linesOfSigns
  rw [List.splitOn_append_cons_self]
  simp only [List.dropLast_append_of_ne_nil hne, hlast, List.append_assoc]

theorem linesOfSigns_cons_line {line : List Sign} (h : feed ∉ line) (hs : List Sign) :
    linesOfSigns (line ++ feed :: hs) = line :: linesOfSigns hs := by
  rw [linesOfSigns_append_feed, List.splitOn_eq_singleton h]
  rfl

@[simp] theorem linesOfSigns_nil : linesOfSigns [] = [] := rfl

theorem dropWhile_append_feed (gs hs : List Sign) :
    (gs ++ feed :: hs).dropWhile (· = .blank) = gs.dropWhile (· = .blank) ++ feed :: hs := by
  have hfeed : feed ≠ .blank := by decide
  rw [List.dropWhile_append]
  split
  · next hempty => simp [List.isEmpty_iff.1 hempty, hfeed]
  · rfl

/-- Joining does not look beyond the end of a line. -/
theorem joined_append_feed (gs hs : List Sign) : joined (gs ++ feed :: hs) = joined gs ++ feed :: joined hs := by
  induction gs with
  | nil => rfl
  | cons g gs ih =>
    rw [List.cons_append, joined, joined, ih]
    by_cases hg : g = .escaped '\n'
    · rw [if_pos hg, if_pos hg, dropWhile_append_feed]
    · rw [if_neg hg, if_neg hg, List.cons_append]

/-! ## Ends of texts -/

/-- The number of dollars at the end of a text. -/
def dollarsAtEnd (s : Text) : Nat := (s.reverse.takeWhile (· = '$')).length

theorem dollarsAtEnd_concat (s : Text) (c : Char) :
    dollarsAtEnd (s ++ [c]) = if c = '$' then dollarsAtEnd s + 1 else 0 := by
  unfold dollarsAtEnd
  by_cases hc : c = '$' <;> simp [hc]

/-- A text is whole if the dollars at its end escape each other. -/
theorem isWhole_iff_even {s : Text} : IsWhole s ↔ Even (dollarsAtEnd s) := by
  have hodd : s.foldl oddDollars false = true ↔ ¬ Even (dollarsAtEnd s) := by
    -- by induction from the end of the text, where both sides look
    induction s using List.reverseRecOn with
    | nil => simp [dollarsAtEnd]
    | append_singleton s c ih =>
      rw [List.foldl_append, List.foldl_cons, List.foldl_nil, dollarsAtEnd_concat]
      by_cases hc : c = '$'
      · rw [if_pos hc, Nat.even_add_one, ← ih]
        simp [oddDollars, hc]
      · simp [oddDollars, hc]
  unfold IsWhole
  rw [← Bool.not_eq_true, hodd, not_not]

theorem isWhole_concat (s : Text) {c : Char} (hc : c ≠ '$') : IsWhole (s ++ [c]) := by
  rw [isWhole_iff_even, dollarsAtEnd_concat, if_neg hc]
  exact Even.zero

theorem isWhole_append_of_getLast? (s : Text) {t : Text} {c : Char} (ht : t.getLast? = some c) (hc : c ≠ '$') :
    IsWhole (s ++ t) := by
  obtain ⟨t, rfl⟩ := List.getLast?_eq_some_iff.1 ht
  rw [← List.append_assoc]
  exact isWhole_concat _ hc

/-- Only what follows the last blank decides whether a text is whole. -/
theorem isWhole_append_blank {s t : Text} : IsWhole (s ++ ' ' :: t) ↔ IsWhole t := by
  refine ⟨isWhole_after, fun ht => ?_⟩
  rw [List.append_cons]
  exact isWhole_append (isWhole_concat s (by decide)) ht

/-- A text whose last line ends. -/
def IsClosed (s : Text) : Prop := s = [] ∨ ∃ t, IsWhole t ∧ s = t ++ "\n"

theorem isClosed_append {s t : Text} (hs : IsClosed s) (ht : IsClosed t) : IsClosed (s ++ t) := by
  rcases ht with rfl | ⟨t, ht, rfl⟩
  · rwa [List.append_nil]
  · refine Or.inr ⟨s ++ t, ?_, (List.append_assoc _ _ _).symm⟩
    rcases hs with rfl | ⟨s, -, rfl⟩
    · exact ht
    · exact isWhole_append (isWhole_concat s (by decide)) ht

theorem isWhole_flatMap {α : Type} {f : α → Text} {xs : List α} (h : ∀ x ∈ xs, IsWhole (f x)) :
    IsWhole (xs.flatMap f) := by
  induction xs with
  | nil => rfl
  | cons x xs ih =>
    rw [List.flatMap_cons]
    exact isWhole_append (h x List.mem_cons_self) (ih fun y hy => h y (List.mem_cons_of_mem _ hy))

theorem isClosed_flatMap {α : Type} {f : α → Text} {xs : List α} (h : ∀ x ∈ xs, IsClosed (f x)) :
    IsClosed (xs.flatMap f) := by
  induction xs with
  | nil => exact Or.inl rfl
  | cons x xs ih =>
    rw [List.flatMap_cons]
    exact isClosed_append (h x List.mem_cons_self) (ih fun y hy => h y (List.mem_cons_of_mem _ hy))

@[simp] theorem logicalLines_nil : logicalLines [] = [] := rfl

/-- What follows a text whose last line ends is read on its own. -/
theorem logicalLines_append {s : Text} (hs : IsClosed s) (t : Text) :
    logicalLines (s ++ t) = logicalLines s ++ logicalLines t := by
  rcases hs with rfl | ⟨s, hs, rfl⟩
  · rfl
  · have hsigns : signs (s ++ "\n") = signs s ++ [feed] := signs_append hs _
    have hwhole : IsWhole (s ++ "\n") := isWhole_concat s (by decide)
    have hlines (u : Text) : logicalLines (s ++ "\n" ++ u) = (joined (signs s)).splitOn feed ++ logicalLines u := by
      unfold logicalLines
      rw [signs_append hwhole, hsigns, List.append_assoc, List.singleton_append, joined_append_feed,
        linesOfSigns_append_feed]
    -- with nothing behind it, the same equation gives the lines of the text itself
    have hself := hlines []
    rw [List.append_nil, logicalLines_nil, List.append_nil] at hself
    rw [hlines, hself]

/-! ## One line -/

theorem mem_of_mem_signsAfter {pending : Bool} {s : Text} {c : Char} (hc : c ≠ '$')
    (h : .plain c ∈ signsAfter pending s ∨ .escaped c ∈ signsAfter pending s) : c ∈ s := by
  induction s generalizing pending with
  | nil => cases pending <;> simp_all [signsAfter]
  | cons d s ih =>
    unfold signsAfter at h
    by_cases hd : c = d
    · exact hd ▸ List.mem_cons_self
    · refine List.mem_cons_of_mem _ ?_
      split at h
      · exact ih (by simpa [hd] using h)
      · split at h
        · exact ih h
        · exact ih (by simpa [hd] using h)

theorem feed_not_mem_signs {s : Text} (h : '\n' ∉ s) : feed ∉ signs s ∧ Sign.escaped '\n' ∉ signs s :=
  ⟨fun hmem => h (mem_of_mem_signsAfter (by decide) (Or.inl hmem)),
    fun hmem => h (mem_of_mem_signsAfter (by decide) (Or.inr hmem))⟩

/-- A line feed behind a whole text ends its line. -/
theorem logicalLines_cons {s : Text} (hs : IsWhole s) (hfeed : '\n' ∉ s) (t : Text) :
    logicalLines (s ++ "\n" ++ t) = signs s :: logicalLines t := by
  obtain ⟨hplain, hescaped⟩ := feed_not_mem_signs hfeed
  have hsigns : signs (s ++ "\n" ++ t) = signs s ++ feed :: signs t := by
    rw [List.append_assoc]
    exact signs_append hs _
  unfold logicalLines
  rw [hsigns, joined_append_feed, linesOfSigns_append_feed]
  have hline : joined (signs s) = signs s := by
    have hjoined := joined_append hescaped []
    rwa [List.append_nil, joined, List.append_nil] at hjoined
  rw [hline, List.splitOn_eq_singleton hplain, List.singleton_append]

/-- A dollar before it joins the next line, less the blanks at its start. -/
theorem logicalLines_cons_dollar {s : Text} (hs : IsWhole s) (hfeed : '\n' ∉ s) (t : Text) :
    logicalLines (s ++ "$" ++ "\n" ++ t) = linesOfSigns (signs s ++ (joined (signs t)).dropWhile (· = .blank)) := by
  have hsigns : signs (s ++ "$" ++ "\n" ++ t) = signs s ++ .escaped '\n' :: signs t := by
    rw [List.append_assoc, List.append_assoc]
    exact signs_append hs _
  unfold logicalLines
  rw [hsigns, joined_append (feed_not_mem_signs hfeed).2, joined, if_pos rfl]

/-! ## Lines that were cut -/

theorem lineWords_cons_blank (gs : List Sign) : lineWords (.blank :: gs) = lineWords gs :=
  lineWords_append_blank [] gs

/-- Blanks at the start of a line do not belong to its words. -/
theorem lineWords_dropWhile (gs : List Sign) : lineWords (gs.dropWhile (· = .blank)) = lineWords gs := by
  induction gs with
  | nil => rfl
  | cons g gs ih =>
    by_cases hg : g = .blank
    · rw [hg, List.dropWhile_cons_of_pos (by simp), lineWords_cons_blank, ih]
    · rw [List.dropWhile_cons_of_neg (by simpa using hg)]

theorem lineWords_replicate_append (lead : Nat) (gs : List Sign) :
    lineWords (List.replicate lead .blank ++ gs) = lineWords gs := by
  rw [← lineWords_dropWhile, List.dropWhile_append_of_pos (by simp), lineWords_dropWhile]

theorem feed_not_mem_replicate (lead : Nat) : feed ∉ List.replicate lead Sign.blank := by
  rw [List.mem_replicate]
  exact fun h => absurd h.2 (by decide)

/-- The lines of a text are joined to one line that has its words. Other than with tidy signs, blanks may be lost: those
at the start of what follows a cut. -/
theorem exists_joined_joinLines (lead nextLead : Nat) {s : Text} (hs : IsWhole s) (hfeed : '\n' ∉ s) :
    ∃ line, joined (signs (joinLines lead nextLead (contents lead nextLead s))) = line ++ [feed] ∧
      feed ∉ line ∧ lineWords line = lineWords (signs s) := by
  have hlast (lead : Nat) {s : Text} (hs : IsWhole s) (hfeed : '\n' ∉ s) :
      ∃ line, joined (signs (joinLines lead nextLead [s])) = line ++ [feed] ∧
        feed ∉ line ∧ lineWords line = lineWords (signs s) := by
    obtain ⟨hplain, hescaped⟩ := feed_not_mem_signs hfeed
    refine ⟨List.replicate lead Sign.blank ++ signs s, joined_lastLine lead hs hescaped, ?_, ?_⟩
    · exact List.not_mem_append (feed_not_mem_replicate lead) hplain
    · exact lineWords_replicate_append lead (signs s)
  fun_induction contents lead nextLead s with
  | case1 lead s => exact hlast lead hs hfeed
  | case2 lead s => exact hlast lead hs hfeed
  | case3 lead s _ before after hcut _ ih =>
    have hbefore := isWhole_of_cut? hcut
    have hs' := eq_of_cut? hcut
    rw [hs'] at hs hfeed
    simp only [List.mem_append, List.mem_cons, not_or] at hfeed
    obtain ⟨hplain, hescaped⟩ := feed_not_mem_signs hfeed.1
    obtain ⟨line, hline, hlinefeed, hwords⟩ := ih (isWhole_after hs) hfeed.2.2
    refine ⟨List.replicate lead .blank ++ signs before ++ .blank :: line.dropWhile (· = .blank), ?_, ?_, ?_⟩
    · rw [joinLines_cons lead nextLead before (contents_ne_nil _ _ _), joined_brokenLine lead hbefore hescaped, hline,
        dropWhile_append_feed, List.append_assoc _ (Sign.blank :: _), List.cons_append]
    · simp only [List.mem_append, List.mem_cons, not_or]
      exact ⟨⟨feed_not_mem_replicate lead, hplain⟩, by decide,
        fun hmem => hlinefeed ((List.dropWhile_sublist _).subset hmem)⟩
    · rw [hs', signs_append hbefore, signs_cons (by decide), List.append_assoc, lineWords_replicate_append,
        lineWords_append_blank, lineWords_dropWhile, hwords]
      exact (lineWords_append_blank _ _).symm

/-- A text that was laid out is one line. -/
theorem logicalLines_layout (depth : Nat) {s : Text} (hs : IsWhole s) (hfeed : '\n' ∉ s) :
    ∃ line, logicalLines (layout depth s) = [line] ∧ lineWords line = lineWords (signs s) := by
  obtain ⟨line, hline, hlinefeed, hwords⟩ := exists_joined_joinLines (2 * depth) (2 * (depth + 2)) hs hfeed
  refine ⟨line, ?_, hwords⟩
  unfold logicalLines layout
  rw [hline, linesOfSigns_cons_line hlinefeed, linesOfSigns_nil]

/-- A text that was laid out ends in a line feed, which nothing escapes if the text is whole. -/
theorem joinLines_eq_concat (lead nextLead : Nat) (s : Text) :
    ∃ t, joinLines lead nextLead (contents lead nextLead s) = t ++ "\n" ∧ (IsWhole s → IsWhole t) := by
  have hlast (lead : Nat) (s : Text) : ∃ t, joinLines lead nextLead [s] = t ++ "\n" ∧ (IsWhole s → IsWhole t) :=
    ⟨_, rfl, isWhole_append (isWhole_indentation lead).1⟩
  fun_induction contents lead nextLead s with
  | case1 lead s => exact hlast lead s
  | case2 lead s => exact hlast lead s
  | case3 lead s _ before after hcut _ ih =>
    obtain ⟨t, hrest, ht⟩ := ih
    rw [joinLines_cons lead nextLead before (contents_ne_nil _ _ _), hrest, ← List.append_assoc _ t, eq_of_cut? hcut]
    exact ⟨_, rfl, fun hs => isWhole_append (isWhole_concat _ (by decide)) (ht (isWhole_after hs))⟩

theorem isClosed_layout (depth : Nat) {s : Text} (hs : IsWhole s) : IsClosed (layout depth s) := by
  obtain ⟨t, hlayout, ht⟩ := joinLines_eq_concat (2 * depth) (2 * (depth + 2)) s
  exact Or.inr ⟨t, ht hs, hlayout⟩

theorem isWhole_layout (depth : Nat) (s : Text) : IsWhole (layout depth s) := by
  obtain ⟨t, hlayout, -⟩ := joinLines_eq_concat (2 * depth) (2 * (depth + 2)) s
  unfold layout
  rw [hlayout]
  exact isWhole_concat t (by decide)

/-! ## Texts that leave a dollar -/

/-- A text that is not whole ends in a dollar that escapes what follows. -/
theorem exists_eq_concat_dollar {s : Text} (hs : ¬ IsWhole s) : ∃ t, IsWhole t ∧ s = t ++ ['$'] := by
  rcases List.eq_nil_or_concat s with rfl | ⟨t, c, rfl⟩
  · exact absurd rfl hs
  · rw [List.concat_eq_append] at hs ⊢
    have hc : c = '$' := by
      by_contra hc
      exact hs (isWhole_concat t hc)
    rw [isWhole_iff_even, dollarsAtEnd_concat, if_pos hc, Nat.even_add_one, not_not] at hs
    exact ⟨t, isWhole_iff_even.2 hs, by rw [hc]⟩

/-- A text that leaves a dollar takes the line feed behind it, so nothing ends its line. -/
theorem feed_not_mem_joinLines (lead nextLead : Nat) {s : Text} (hs : ¬ IsWhole s) (hfeed : '\n' ∉ s) :
    feed ∉ joined (signs (joinLines lead nextLead (contents lead nextLead s))) := by
  have hlast (lead : Nat) {s : Text} (hs : ¬ IsWhole s) (hfeed : '\n' ∉ s) :
      feed ∉ joined (signs (joinLines lead nextLead [s])) := by
    obtain ⟨t, ht, rfl⟩ := exists_eq_concat_dollar hs
    rw [List.mem_append, not_or] at hfeed
    obtain ⟨hplain, hescaped⟩ := feed_not_mem_signs hfeed.1
    have hline : joinLines lead nextLead [t ++ ['$']] = indentation lead ++ (t ++ ("$" ++ "\n")) := by
      simp [joinLines]
    have hend : joined (signs ("$" ++ "\n")) = [] := rfl
    rw [hline, joined_indentation_append lead ht hescaped, hend, List.append_nil]
    exact List.not_mem_append (feed_not_mem_replicate lead) hplain
  fun_induction contents lead nextLead s with
  | case1 lead s => exact hlast lead hs hfeed
  | case2 lead s => exact hlast lead hs hfeed
  | case3 lead s _ before after hcut _ ih =>
    rw [eq_of_cut? hcut] at hs hfeed
    simp only [List.mem_append, List.mem_cons, not_or] at hfeed
    have hrest := ih (fun hafter => hs (isWhole_append_blank.2 hafter)) hfeed.2.2
    obtain ⟨hplain, hescaped⟩ := feed_not_mem_signs hfeed.1
    rw [joinLines_cons lead nextLead before (contents_ne_nil _ _ _),
      joined_brokenLine lead (isWhole_of_cut? hcut) hescaped]
    simp only [List.mem_append, List.mem_cons, not_or]
    exact ⟨⟨feed_not_mem_replicate lead, hplain⟩, by decide, fun hmem => hrest ((List.dropWhile_sublist _).subset hmem)⟩

theorem exists_layout_eq_cons {c : Char} (hc : c ≠ ' ') (s : Text) : ∃ rest, layout 0 (c :: s) = c :: rest := by
  have hcontents := joinWith_contents 0 4 (c :: s)
  show ∃ rest, joinLines 0 4 (contents 0 4 (c :: s)) = c :: rest
  unfold Text.joinWith at hcontents
  cases hlines : contents 0 4 (c :: s) with
  | nil => exact absurd hlines (contents_ne_nil _ _ _)
  | cons first others =>
    -- the pieces, joined by blanks, are the text, so the first one starts with its first character, which is no blank
    rw [hlines] at hcontents
    obtain ⟨first, rfl⟩ : ∃ first', first = c :: first' := by
      cases others with
      | nil => exact ⟨s, by simpa using hcontents⟩
      | cons second others =>
        rw [List.intercalate_cons_cons] at hcontents
        cases first with
        | nil => exact absurd (List.cons.inj hcontents).1.symm hc
        | cons d first => exact ⟨first, by rw [(List.cons.inj hcontents).1]⟩
    by_cases hothers : others = []
    · rw [hothers]
      exact ⟨_, rfl⟩
    · rw [joinLines_cons _ _ _ hothers]
      exact ⟨_, rfl⟩

/-- A text that leaves a dollar is one line as well, if nothing follows it. -/
theorem logicalLines_layout_of_not_isWhole {c : Char} {s : Text} (hstart : s.head? = some c) (hblank : c ≠ ' ')
    (hdollar : c ≠ '$') (hs : ¬ IsWhole s) (hfeed : '\n' ∉ s) : ∃ line, logicalLines (layout 0 s) = [line] := by
  have hline : feed ∉ joined (signs (layout 0 s)) := feed_not_mem_joinLines 0 4 hs hfeed
  obtain ⟨s, rfl⟩ := List.head?_eq_some_iff.1 hstart
  obtain ⟨rest, hrest⟩ := exists_layout_eq_cons hblank s
  have hjoined : joined (signs (layout 0 (c :: s))) = .plain c :: joined (signs rest) := by
    rw [hrest, signs_cons hdollar, joined, if_neg (by simp)]
  refine ⟨joined (signs (layout 0 (c :: s))), ?_⟩
  unfold logicalLines linesOfSigns
  rw [List.splitOn_eq_singleton hline, hjoined]
  rfl

/-! ## Lines of comments -/

/-- Behind signs of one line the first line is longer, and the others are as they were. -/
theorem exists_linesOfSigns_append {gs : List Sign} (hgs : feed ∉ gs) (hne : gs ≠ []) (hs : List Sign) :
    ∃ first, linesOfSigns (gs ++ hs) = (gs ++ first) :: (linesOfSigns hs).tail := by
  by_cases hfeed : feed ∈ hs
  · obtain ⟨first, rest, rfl, hfirst⟩ := List.eq_append_cons_of_mem hfeed
    have hlong : feed ∉ gs ++ first := List.not_mem_append hgs hfirst
    refine ⟨first, ?_⟩
    rw [← List.append_assoc, linesOfSigns_cons_line hlong, linesOfSigns_cons_line hfirst, List.tail_cons]
  · have hlong : feed ∉ gs ++ hs := List.not_mem_append hgs hfeed
    refine ⟨hs, ?_⟩
    unfold linesOfSigns
    rw [List.splitOn_eq_singleton hlong, List.splitOn_eq_singleton hfeed]
    by_cases hnil : hs = [] <;> simp [hne, hnil]

/-- The text of some lines of a comment. -/
def commentText (lines : List Text) : Text := lines.flatMap fun line => "# " ++ line ++ "\n"

/-- The signs of a comment start with its mark, so nothing of them is lost behind a line that goes on. -/
theorem dropWhile_joined_commentText (lines : List Text) :
    (joined (signs (commentText lines))).dropWhile (· = .blank) = joined (signs (commentText lines)) := by
  cases lines with
  | nil => rfl
  | cons l lines =>
    have hmark : signs (commentText (l :: lines)) = .plain '#' :: signs ((" " ++ l ++ "\n") ++ commentText lines) :=
      signs_cons (by decide) _
    rw [hmark, joined, if_neg (by decide), List.dropWhile_cons_of_neg (by decide)]

/-- Every line of a comment begins with its mark, also where a line goes on in the next one. -/
theorem head?_of_mem_commentText {lines : List Text} (h : ∀ l ∈ lines, '\n' ∉ l) :
    ∀ line ∈ logicalLines (commentText lines), line.head? = some (.plain '#') := by
  induction lines with
  | nil => simp [commentText]
  | cons l lines ih =>
    intro line hline
    have hrest := ih fun l' hl' => h l' (List.mem_cons_of_mem _ hl')
    have hfeed : '\n' ∉ ("# " ++ l : Text) := by simpa using h l List.mem_cons_self
    have htext : commentText (l :: lines) = ("# " ++ l) ++ "\n" ++ commentText lines := rfl
    rw [htext] at hline
    by_cases hwhole : IsWhole ("# " ++ l)
    · have hmark : signs ("# " ++ l) = .plain '#' :: signs (" " ++ l) := signs_cons (by decide) _
      rw [logicalLines_cons hwhole hfeed, hmark, List.mem_cons] at hline
      rcases hline with rfl | hline
      · rfl
      · exact hrest line hline
    · -- the line goes on in the first of the others, which loses its own start but nothing else: its mark is no blank
      obtain ⟨t, ht, htl⟩ := exists_eq_concat_dollar hwhole
      obtain ⟨t, rfl⟩ : ∃ t', t = '#' :: t' := by
        cases t with
        | nil =>
          have hmark : '#' = '$' := (List.cons.inj htl).1
          exact absurd hmark (by decide)
        | cons c t =>
          have hmark : '#' = c := (List.cons.inj htl).1
          exact ⟨t, by rw [hmark]⟩
      rw [htl, List.mem_append, not_or] at hfeed
      have hmark : signs ('#' :: t) = .plain '#' :: signs t := signs_cons (by decide) t
      obtain ⟨first, hfirst⟩ := exists_linesOfSigns_append (feed_not_mem_signs hfeed.1).1
        (hmark ▸ List.cons_ne_nil _ _) (joined (signs (commentText lines)))
      have hlines := logicalLines_cons_dollar ht hfeed.1 (commentText lines)
      rw [dropWhile_joined_commentText, hfirst] at hlines
      rw [htl] at hline
      rcases List.mem_cons.1 (hlines ▸ hline) with rfl | hline
      · rw [hmark]
        rfl
      · exact hrest line (List.mem_of_mem_tail hline)

theorem feed_not_mem_lines {s line : Text} (h : line ∈ Text.lines s) : '\n' ∉ line := by
  rcases List.mem_append.1 h with h | h
  · obtain ⟨piece, hpiece, rfl⟩ := List.mem_map.1 h
    have hfeed := Text.not_mem_of_mem_splitOn (List.dropLast_subset _ hpiece)
    exact fun hmem => hfeed ((Text.withoutEnd_prefix _ _).subset hmem)
  · exact Text.not_mem_of_mem_splitOn (List.mem_of_getLast? (Option.mem_toList.1 (List.mem_filter.1 h).1))

/-! ## Lines of statements -/

/-- A text that neither breaks off its line nor runs into the next one. -/
structure StaysOnLine (s : Text) : Prop where
  feed_not_mem : '\n' ∉ s
  even_dollars : Even (dollarsAtEnd s)

instance (s : Text) : Decidable (StaysOnLine s) :=
  decidable_of_iff ('\n' ∉ s ∧ Even (dollarsAtEnd s)) ⟨fun h => ⟨h.1, h.2⟩, fun h => ⟨h.1, h.2⟩⟩

/-- A line says a text if it has the words of the text, whatever blanks there are between them. Of a text that leaves a
dollar nothing is said, because no line has that dollar. -/
def Says (line : List Sign) (s : Text) : Prop := IsWhole s → lineWords line = lineWords (signs s)

namespace Statement

/-- The texts of the lines of a statement, before they are laid out. -/
def lineTexts : Statement → List Text
  | blank => [[]]
  | comment text => (Text.lines text).map ("# " ++ ·)
  | binding name value => [name ++ " = " ++ value]
  | rule r => ("rule " ++ r.name) :: (ruleBindings r).map fun (name, value) => name ++ " = " ++ value
  | edge e => [e.line]
  | default targets => ["default " ++ Text.joinWith " " targets]

/-- Whether some lines are those of a statement: in a comment each begins with its mark, and any other statement has one
line for each of its texts, which says that text. -/
def IsReadAs : Statement → List (List Sign) → Prop
  | comment _, lines => ∀ line ∈ lines, line.head? = some (.plain '#')
  | s, lines => List.Forall₂ Says lines s.lineTexts

/-- Whether all texts of a statement stay on their lines. A comment marks its lines, so only its last one counts. -/
def IsSafe : Statement → Prop
  | comment text => ∀ last ∈ (Text.lines text).getLast?, Even (dollarsAtEnd last)
  | s => ∀ text ∈ s.lineTexts, StaysOnLine text

end Statement

theorem length_flatten_of_isReadAs {f : File} {groups : List (List (List Sign))}
    (h : List.Forall₂ Statement.IsReadAs f groups) (hcomments : ∀ s ∈ f, ¬ s matches .comment _) :
    groups.flatten.length = (f.flatMap Statement.lineTexts).length := by
  induction h with
  | nil => rfl
  | @cons s lines f groups hread _ ih =>
    have hlines : lines.length = s.lineTexts.length := by
      cases s with
      | comment text => exact absurd rfl (hcomments _ List.mem_cons_self)
      | _ => exact hread.length_eq
    rw [List.flatten_cons, List.flatMap_cons, List.length_append, List.length_append, hlines,
      ih fun t ht => hcomments t (List.mem_cons_of_mem _ ht)]

/-- A file without comments is not read as what it was if the number of its lines is another one. -/
theorem not_isReadAs_of_length_ne {f : File}
    (hlength : (logicalLines f.text).length ≠ (f.flatMap Statement.lineTexts).length)
    (hcomments : ∀ s ∈ f, ¬ s matches .comment _) :
    ¬ ∃ groups, logicalLines f.text = groups.flatten ∧ List.Forall₂ Statement.IsReadAs f groups := by
  rintro ⟨groups, hgroups, hread⟩
  rw [hgroups, length_flatten_of_isReadAs hread hcomments] at hlength
  exact hlength rfl

/-- Texts that stay on their lines are one line each when they are laid out one after the other. -/
theorem logicalLines_flatMap_layout (depth : Nat) {texts : List Text} (h : ∀ s ∈ texts, StaysOnLine s) :
    IsClosed (texts.flatMap (layout depth)) ∧
      List.Forall₂ Says (logicalLines (texts.flatMap (layout depth))) texts := by
  have hwhole : ∀ s ∈ texts, IsWhole s := fun s hs => isWhole_iff_even.2 (h s hs).even_dollars
  refine ⟨isClosed_flatMap fun s hs => isClosed_layout depth (hwhole s hs), ?_⟩
  induction texts with
  | nil => exact List.Forall₂.nil
  | cons s texts ih =>
    have hs := hwhole s List.mem_cons_self
    obtain ⟨line, hline, hwords⟩ := logicalLines_layout depth hs (h s List.mem_cons_self).feed_not_mem
    rw [List.flatMap_cons, logicalLines_append (isClosed_layout depth hs), hline]
    have hrest := ih (fun t ht => h t (List.mem_cons_of_mem _ ht)) fun t ht => hwhole t (List.mem_cons_of_mem _ ht)
    exact .cons (fun _ => hwords) hrest

theorem isClosed_commentText {lines : List Text} (h : ∀ last ∈ lines.getLast?, Even (dollarsAtEnd last)) :
    IsClosed (commentText lines) := by
  rcases List.eq_nil_or_concat lines with rfl | ⟨lines, last, rfl⟩
  · exact Or.inl rfl
  · rw [List.concat_eq_append] at h ⊢
    have hlast : IsWhole last := isWhole_iff_even.2 (h last (by simp))
    refine Or.inr ⟨commentText lines ++ ['#'] ++ ' ' :: last, isWhole_append_blank.2 hlast, ?_⟩
    simp [commentText]

/-- A statement whose texts stay on their lines is read as what it was. -/
theorem Statement.IsSafe.isReadAs {s : Statement} (h : s.IsSafe) :
    IsClosed s.text ∧ s.IsReadAs (logicalLines s.text) := by
  have hone {line : Text} (h : ∀ text ∈ [line], StaysOnLine text) :
      IsClosed (layout 0 line) ∧ List.Forall₂ Says (logicalLines (layout 0 line)) [line] := by
    have hline := logicalLines_flatMap_layout 0 h
    rwa [List.flatMap_singleton] at hline
  cases s with
  | blank => exact ⟨Or.inr ⟨[], rfl, rfl⟩, .cons (fun _ => rfl) .nil⟩
  | comment text => exact ⟨isClosed_commentText h, head?_of_mem_commentText fun _ hline => feed_not_mem_lines hline⟩
  | binding name value => exact hone h
  | rule r =>
    obtain ⟨hhead, hbindings⟩ := List.forall_mem_cons.1 h
    obtain ⟨hclosed, hsays⟩ := hone (List.forall_mem_singleton.2 hhead)
    obtain ⟨hclosed', hsays'⟩ := logicalLines_flatMap_layout 1 hbindings
    rw [List.flatMap_map] at hclosed' hsays'
    refine ⟨isClosed_append hclosed hclosed', ?_⟩
    show List.Forall₂ Says (logicalLines (layout 0 ("rule " ++ r.name) ++ _)) _
    rw [logicalLines_append hclosed]
    exact List.rel_append hsays hsays'
  | edge e => exact hone h
  | default targets => exact hone h

/-- A default statement is one line even if its last target leaves a dollar, as long as nothing follows it. -/
theorem Statement.isReadAs_default {targets : List Path} (h : ∀ t ∈ targets, '\n' ∉ t) :
    (Statement.default targets).IsReadAs (logicalLines (Statement.default targets).text) := by
  have hfeed : '\n' ∉ ("default " ++ Text.joinWith " " targets : Text) :=
    List.not_mem_append (by decide) (not_mem_intercalate (by decide) h)
  show List.Forall₂ Says (logicalLines (layout 0 _)) [_]
  by_cases hwhole : IsWhole ("default " ++ Text.joinWith " " targets)
  · obtain ⟨line, hline, hwords⟩ := logicalLines_layout 0 hwhole hfeed
    rw [hline]
    exact .cons (fun _ => hwords) .nil
  · have hstart : ("default " ++ Text.joinWith " " targets : Text).head? = some 'd' := rfl
    obtain ⟨line, hline⟩ := logicalLines_layout_of_not_isWhole hstart (by decide) (by decide) hwhole hfeed
    rw [hline]
    exact .cons (fun hs => absurd hs hwhole) .nil

/-- Every statement ends in a line feed, so none leaves a dollar. -/
theorem isWhole_text (f : File) : IsWhole f.text := by
  refine isWhole_flatMap fun s _ => ?_
  cases s with
  | blank => rfl
  | comment text => exact isWhole_flatMap fun line _ => isWhole_concat _ (by decide)
  | binding name value => exact isWhole_layout 0 _
  | rule r => exact isWhole_append (isWhole_layout 0 _) (isWhole_flatMap fun _ _ => isWhole_layout 1 _)
  | edge e => exact isWhole_layout 0 _
  | default targets => exact isWhole_layout 0 _

theorem isClosed_concat_blank (f : File) : IsClosed (File.text (f ++ [.blank])) := by
  rw [File.text_append]
  exact Or.inr ⟨f.text, isWhole_text f, rfl⟩

/-- The lines of a file are those of its statements, one after the other. -/
theorem logicalLines_text {f : File} (h : ∀ s ∈ f, s.IsSafe) :
    IsClosed f.text ∧ ∃ groups, logicalLines f.text = groups.flatten ∧ List.Forall₂ Statement.IsReadAs f groups := by
  refine ⟨isClosed_flatMap fun s hs => (h s hs).isReadAs.1, ?_⟩
  induction f with
  | nil => exact ⟨[], rfl, .nil⟩
  | cons s f ih =>
    obtain ⟨hclosed, hread⟩ := (h s List.mem_cons_self).isReadAs
    obtain ⟨groups, hgroups, hreads⟩ := ih fun t ht => h t (List.mem_cons_of_mem _ ht)
    refine ⟨logicalLines s.text :: groups, ?_, .cons hread hreads⟩
    rw [List.flatten_cons, ← hgroups, ← logicalLines_append hclosed]
    rfl

/-- So they are if the last statement leaves a dollar, but is read as what it was on its own. -/
theorem logicalLines_text_concat {f : File} {last : Statement} (h : ∀ s ∈ f, s.IsSafe)
    (hlast : last.IsReadAs (logicalLines last.text)) :
    ∃ groups, logicalLines (f ++ [last]).text = groups.flatten ∧
      List.Forall₂ Statement.IsReadAs (f ++ [last]) groups := by
  obtain ⟨hclosed, groups, hgroups, hreads⟩ := logicalLines_text h
  have htext : File.text [last] = last.text := List.append_nil _
  refine ⟨groups ++ [logicalLines last.text], ?_, List.rel_append hreads (.cons hlast .nil)⟩
  rw [File.text_append, htext, logicalLines_append hclosed, hgroups, List.flatten_append, List.flatten_singleton]

end CprojNinja.Ninja
