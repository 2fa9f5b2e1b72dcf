import CprojNinja.Ninja.File
import CprojNinja.Proofs.Signs
import Mathlib.Data.List.TakeWhile

/-!
# Reading build statements

A build statement is read as ninja reads it: its lines are joined, its words end at plain blanks, the outputs end at the
first plain colon, then come the rule and the inputs, and what follows a word that is a bar alone is an implicit
dependency. The main statement is that this gives back the edge that was written, however long the statement is and
wherever its lines were cut.

All that the proof needs of a word is collected in `Reads`: none of its signs ends a word or a line, and undone it is
what was escaped.
-/

namespace CprojNinja.Ninja

/-! ## The reader -/

/-- The sign between outputs and rule. -/
def colon : Sign := .plain ':'

/-- The word between inputs and implicit dependencies. -/
def bar : List Sign := [.plain '|']

/-- The words of a line. -/
def lineWords (line : List Sign) : List (List Sign) := (line.splitOn .blank).filter (· ≠ [])

/-- The path that a word means. -/
def meaning (word : List Sign) : Path := word.flatMap Sign.meaning

/-- The one line of a text. -/
def onlyLine? (s : Text) : Option (List Sign) :=
  match (joined (signs s)).splitOn (.plain '\n') with
  | [line, []] => some line
  | _ => none

/-- The edge that a text describes. -/
def readEdge? (s : Text) : Option Edge := do
  let line ← onlyLine? s
  match lineWords (line.takeWhile (· ≠ colon)), lineWords ((line.dropWhile (· ≠ colon)).drop 1) with
  | keyword :: outputs, rule :: paths =>
    if meaning keyword = "build" then
      some {
        outputs := outputs.map meaning
        rule := meaning rule
        inputs := (paths.takeWhile (· ≠ bar)).map meaning
        implicit := ((paths.dropWhile (· ≠ bar)).drop 1).map meaning }
    else none
  | _, _ => none

/-! ## Words -/

/-- Signs that make up one word of a line. -/
structure IsWord (word : List Sign) : Prop where
  /-- There is something to read. -/
  ne_nil : word ≠ []
  /-- The word does not end before its last sign. -/
  blank_not_mem : .blank ∉ word
  /-- The line does not end in the word. -/
  feed_not_mem : .plain '\n' ∉ word
  /-- The line does not go on in the next one either. -/
  escapedFeed_not_mem : .escaped '\n' ∉ word

/-- Some text is read as one word that means a path. -/
structure Reads (word : Text) (path : Path) : Prop where
  /-- No dollar is left to escape what follows. -/
  whole : IsWhole word
  /-- It is one word. -/
  isWord : IsWord (signs word)
  /-- The outputs do not end in the word. -/
  colon_not_mem : colon ∉ signs word
  /-- Undone, the word is the path. -/
  meaning_eq : meaning (signs word) = path

/-- Words with blanks between them are read one by one. -/
theorem signs_joinWith (words : List Text) (h : ∀ w ∈ words, IsWhole w) :
    IsWhole (Text.joinWith " " words) ∧
      signs (Text.joinWith " " words) = [Sign.blank].intercalate (words.map signs) := by
  unfold Text.joinWith
  induction words with
  | nil => exact ⟨rfl, rfl⟩
  | cons w words ih =>
    have hw := h w List.mem_cons_self
    obtain ⟨hwhole, hsigns⟩ := ih fun v hv => h v (List.mem_cons_of_mem _ hv)
    cases words with
    | nil => exact ⟨by simpa using hw, by simp⟩
    | cons v words =>
      have hblank : IsWhole (" " : Text) := rfl
      rw [List.intercalate_cons_cons, List.map_cons, List.map_cons, List.intercalate_cons_cons, ← List.map_cons,
        ← hsigns]
      refine ⟨isWhole_append (isWhole_append hw hblank) hwhole, ?_⟩
      rw [List.append_assoc, List.append_assoc, signs_append hw, signs_append hblank]
      rfl

theorem not_mem_intercalate {α : Type} {a : α} {separator : List α} {lists : List (List α)} (hseparator : a ∉ separator)
    (h : ∀ l ∈ lists, a ∉ l) : a ∉ separator.intercalate lists := by
  induction lists with
  | nil => exact List.not_mem_nil
  | cons l lists ih =>
    obtain ⟨hl, hrest⟩ := List.forall_mem_cons.1 h
    cases lists with
    | nil => simpa using hl
    | cons l' lists =>
      rw [List.intercalate_cons_cons]
      exact List.not_mem_append (List.not_mem_append hl hseparator) (ih hrest)

/-- What is added after the last of some lists is added to that list. -/
theorem intercalate_concat_append {α : Type} (separator : List α) (lists : List (List α)) (l t : List α) :
    separator.intercalate (lists ++ [l]) ++ t = separator.intercalate (lists ++ [l ++ t]) := by
  induction lists with
  | nil => simp
  | cons l' lists ih =>
    rw [List.cons_append, List.cons_append, List.intercalate_cons_of_ne_nil (by simp),
      List.intercalate_cons_of_ne_nil (by simp), ← ih]
    simp

/-- Words are found again in a line that has blanks between them. -/
theorem lineWords_intercalate {words : List (List Sign)} (h : ∀ w ∈ words, IsWord w) :
    lineWords ([Sign.blank].intercalate words) = words := by
  unfold lineWords
  by_cases hne : words = []
  · rw [hne]
    rfl
  · rw [List.splitOn_intercalate _ (fun w hw => (h w hw).blank_not_mem) hne]
    exact List.filter_eq_self.2 fun w hw => decide_eq_true (h w hw).ne_nil

theorem lineWords_append_blank (gs hs : List Sign) : lineWords (gs ++ .blank :: hs) = lineWords gs ++ lineWords hs := by
  unfold lineWords
  rw [List.splitOn_append_cons_self, List.filter_append]

/-- Words with blanks between them are tidy. -/
theorem isTidy_intercalate {words : List (List Sign)} (hne : words ≠ [])
    (h : ∀ w ∈ words, IsWord w) : IsTidy ([Sign.blank].intercalate words) where
  unbroken := not_mem_intercalate (by decide) fun w hw => (h w hw).escapedFeed_not_mem
  single := by
    rw [List.splitOn_intercalate _ (fun w hw => (h w hw).blank_not_mem) hne]
    exact fun hmem => (h [] hmem).ne_nil rfl

/-- A word stays one when a colon is written behind it. -/
theorem IsWord.concat_colon {word : List Sign} (h : IsWord word) : IsWord (word ++ [colon]) where
  ne_nil := by simp
  blank_not_mem := List.not_mem_append h.blank_not_mem (by decide)
  feed_not_mem := List.not_mem_append h.feed_not_mem (by decide)
  escapedFeed_not_mem := List.not_mem_append h.escapedFeed_not_mem (by decide)

/-- Words are tidy as well with a colon right behind the last one, which makes that word longer. -/
theorem isTidy_intercalate_colon {words : List (List Sign)} (h : ∀ w ∈ words, IsWord w) :
    IsTidy ([Sign.blank].intercalate words ++ [colon]) := by
  rcases List.eq_nil_or_concat words with rfl | ⟨others, last, rfl⟩
  · exact ⟨by decide, by decide⟩
  · rw [List.concat_eq_append] at h ⊢
    rw [intercalate_concat_append]
    refine isTidy_intercalate (by simp) fun w hw => ?_
    rcases List.mem_append.1 hw with hw | hw
    · exact h w (List.mem_append_left _ hw)
    · rw [List.mem_singleton.1 hw]
      exact (h last (by simp)).concat_colon

/-! ## Edges -/

/-- An edge whose words are read as what they were written for. -/
structure Edge.IsLegible (e : Edge) : Prop where
  /-- The rule is one word. -/
  rule : Reads e.rule e.rule
  /-- Each path is one word, and none is a bar. -/
  paths : ∀ path ∈ e.outputs ++ e.inputs ++ e.implicit, Reads (escape path) path ∧ signs (escape path) ≠ bar

theorem reads_bar : Reads "|" "|" := ⟨rfl, ⟨by decide, by decide, by decide, by decide⟩, by decide, by decide⟩

/-- Each word of an edge behind the colon is read as one word. -/
theorem Edge.IsLegible.reads_edgeWords {e : Edge} (he : e.IsLegible) {word : Text}
    (hword : word ∈ Statement.edgeWords e) : ∃ path, Reads word path := by
  unfold Statement.edgeWords at hword
  rcases List.mem_append.1 hword with hword | hword
  · rcases List.mem_cons.1 hword with rfl | hword
    · exact ⟨_, he.rule⟩
    · obtain ⟨path, hpath, rfl⟩ := List.mem_map.1 hword
      exact ⟨path, (he.paths path (by simp [hpath])).1⟩
  · split at hword
    · cases hword
    · rcases List.mem_cons.1 hword with rfl | hword
      · exact ⟨_, reads_bar⟩
      · obtain ⟨path, hpath, rfl⟩ := List.mem_map.1 hword
        exact ⟨path, (he.paths path (by simp [hpath])).1⟩

/-- The line of an edge, as it is before it is laid out. -/
def Edge.line (e : Edge) : Text :=
  "build " ++ escapedWords e.outputs ++ ": " ++ Text.joinWith " " (Statement.edgeWords e)

/-- The signs of the outputs of an edge. -/
def Edge.outputSigns (e : Edge) : List (List Sign) := (e.outputs.map escape).map signs

/-- The signs of the words of an edge behind the colon. -/
def Edge.wordSigns (e : Edge) : List (List Sign) := (Statement.edgeWords e).map signs

theorem Edge.isWord_of_mem_outputSigns {e : Edge} (h : ∀ path ∈ e.outputs, Reads (escape path) path) {w : List Sign}
    (hw : w ∈ e.outputSigns) : IsWord w ∧ colon ∉ w := by
  unfold Edge.outputSigns at hw
  obtain ⟨_, hmem, rfl⟩ := List.mem_map.1 hw
  obtain ⟨path, hpath, rfl⟩ := List.mem_map.1 hmem
  exact ⟨(h path hpath).isWord, (h path hpath).colon_not_mem⟩

section Line

variable {e : Edge} (he : e.IsLegible)
include he

theorem Edge.IsLegible.outputSigns {w : List Sign} (hw : w ∈ e.outputSigns) : IsWord w ∧ colon ∉ w :=
  Edge.isWord_of_mem_outputSigns (fun path hpath => (he.paths path (by simp [hpath])).1) hw

theorem Edge.IsLegible.wordSigns {w : List Sign} (hw : w ∈ e.wordSigns) : IsWord w := by
  unfold Edge.wordSigns at hw
  obtain ⟨word, hmem, rfl⟩ := List.mem_map.1 hw
  obtain ⟨path, hreads⟩ := he.reads_edgeWords hmem
  exact hreads.isWord

/-- The signs of a line: the keyword, the outputs up to the colon, and the other words. -/
theorem Edge.IsLegible.signs_line : IsWhole e.line ∧
    signs e.line = signs "build" ++ .blank :: ([Sign.blank].intercalate e.outputSigns ++
      colon :: .blank :: [Sign.blank].intercalate e.wordSigns) := by
  have houtputs := signs_joinWith (e.outputs.map escape) (by
    intro word hword
    obtain ⟨path, hpath, rfl⟩ := List.mem_map.1 hword
    exact (he.paths path (by simp [hpath])).1.whole)
  have hwords := signs_joinWith (Statement.edgeWords e) (by
    intro word hword
    obtain ⟨path, hreads⟩ := he.reads_edgeWords hword
    exact hreads.whole)
  have hkeyword : IsWhole ("build " : Text) := rfl
  have hcolon : IsWhole (": " : Text) := rfl
  unfold Edge.line escapedWords
  have hstart := isWhole_append hkeyword houtputs.1
  refine ⟨isWhole_append (isWhole_append hstart hcolon) hwords.1, ?_⟩
  rw [signs_append (isWhole_append hstart hcolon), signs_append hstart, signs_append hkeyword, houtputs.2, hwords.2,
    List.append_assoc, List.append_assoc]
  rfl

/-- The line of an edge is tidy. -/
theorem Edge.IsLegible.isTidy_line : IsTidy (signs e.line) := by
  rw [he.signs_line.2, isTidy_append_blank]
  refine ⟨⟨by decide, by decide⟩, ?_⟩
  rw [List.append_cons _ colon, isTidy_append_blank]
  exact ⟨isTidy_intercalate_colon fun w hw => (he.outputSigns hw).1,
    isTidy_intercalate (by simp [Edge.wordSigns, Statement.edgeWords]) fun w hw => he.wordSigns hw⟩

theorem Edge.IsLegible.lineFeed_not_mem : Sign.plain '\n' ∉ signs e.line := by
  have houtputs : Sign.plain '\n' ∉ [Sign.blank].intercalate e.outputSigns :=
    not_mem_intercalate (by decide) fun w hw => (he.outputSigns hw).1.feed_not_mem
  have hwords : Sign.plain '\n' ∉ [Sign.blank].intercalate e.wordSigns :=
    not_mem_intercalate (by decide) fun w hw => (he.wordSigns hw).feed_not_mem
  rw [he.signs_line.2]
  simp only [List.mem_append, List.mem_cons, not_or]
  exact ⟨by decide, by decide, houtputs, by decide, by decide, hwords⟩

end Line

theorem onlyLine?_of_joined {s : Text} {line : List Sign} (hs : joined (signs s) = line ++ [.plain '\n'])
    (hline : Sign.plain '\n' ∉ line) : onlyLine? s = some line := by
  unfold onlyLine?
  rw [hs, List.splitOn_append_cons_self_of_not_mem hline]
  rfl

/-- A line that was laid out is the only line of its text. -/
theorem onlyLine?_layout {s : Text} (hs : IsWhole s) (ht : IsTidy (signs s)) (hline : Sign.plain '\n' ∉ signs s) :
    onlyLine? (layout 0 s) = some (signs s) := by
  have hjoined : joined (signs (layout 0 s)) = signs s ++ [.plain '\n'] := joined_joinLines 0 _ hs ht
  exact onlyLine?_of_joined hjoined hline

/-- What stands before and behind the first mark. -/
theorem cut_at_mark {α : Type} [DecidableEq α] {mark : α} {before : List α} (h : mark ∉ before) (after : List α) :
    (before ++ mark :: after).takeWhile (· ≠ mark) = before ∧
      ((before ++ mark :: after).dropWhile (· ≠ mark)).drop 1 = after := by
  have hbefore : ∀ a ∈ before, decide (a ≠ mark) = true := fun a ha => decide_eq_true fun heq => h (heq ▸ ha)
  refine ⟨?_, ?_⟩
  · rw [List.takeWhile_append_of_pos hbefore]
    simp
  · rw [List.dropWhile_append_of_pos hbefore]
    simp

/-- The words before and behind the colon of a line. -/
theorem Edge.IsLegible.lineWords_line {e : Edge} (he : e.IsLegible) :
    lineWords ((signs e.line).takeWhile (· ≠ colon)) = signs "build" :: e.outputSigns ∧
      lineWords (((signs e.line).dropWhile (· ≠ colon)).drop 1) = e.wordSigns := by
  have houtputs : colon ∉ [Sign.blank].intercalate e.outputSigns :=
    not_mem_intercalate (by decide) fun w hw => (he.outputSigns hw).2
  have hcolon : colon ∉ signs "build" ++ .blank :: [Sign.blank].intercalate e.outputSigns :=
    List.not_mem_append (by decide) (List.not_mem_cons_of_ne_of_not_mem (by decide) houtputs)
  obtain ⟨hbefore, hafter⟩ := cut_at_mark hcolon (.blank :: [Sign.blank].intercalate e.wordSigns)
  rw [List.append_assoc, List.cons_append, ← he.signs_line.2] at hbefore hafter
  rw [hbefore, hafter]
  refine ⟨?_, ?_⟩
  · rw [lineWords_append_blank, lineWords_intercalate fun w hw => (he.outputSigns hw).1]
    rfl
  · rw [← List.nil_append (Sign.blank :: _), lineWords_append_blank,
      lineWords_intercalate fun w hw => he.wordSigns hw]
    rfl

/-- Paths are got back from their words. -/
theorem meaning_words {paths : List Path} (h : ∀ path ∈ paths, Reads (escape path) path) :
    ((paths.map escape).map signs).map meaning = paths := by
  rw [List.map_map, List.map_map]
  exact (List.map_congr_left fun path hpath => (h path hpath).meaning_eq).trans (List.map_id paths)

/-- The words of an edge behind the rule fall into inputs and implicit dependencies. -/
theorem Edge.IsLegible.cut_wordSigns {e : Edge} (he : e.IsLegible) : ∃ paths, e.wordSigns = signs e.rule :: paths ∧
    paths.takeWhile (· ≠ bar) = (e.inputs.map escape).map signs ∧
    (paths.dropWhile (· ≠ bar)).drop 1 = (e.implicit.map escape).map signs := by
  have hbar : bar ∉ (e.inputs.map escape).map signs := by
    intro hmem
    obtain ⟨_, hmem, hbar⟩ := List.mem_map.1 hmem
    obtain ⟨path, hpath, rfl⟩ := List.mem_map.1 hmem
    exact (he.paths path (by simp [hpath])).2 hbar
  unfold Edge.wordSigns Statement.edgeWords
  cases himplicit : e.implicit with
  | nil =>
    have hinputs : ∀ w ∈ (e.inputs.map escape).map signs, decide (w ≠ bar) = true := fun w hw =>
      decide_eq_true fun heq => hbar (heq ▸ hw)
    refine ⟨(e.inputs.map escape).map signs, by simp, List.takeWhile_eq_self_iff.2 hinputs, ?_⟩
    rw [List.dropWhile_eq_nil_iff.2 hinputs]
    rfl
  | cons path implicit =>
    obtain ⟨hbefore, hafter⟩ := cut_at_mark hbar (((path :: implicit).map escape).map signs)
    exact ⟨_, by simp [bar, signs_cons], hbefore, hafter⟩

/-- An edge is read back from its text. -/
theorem readEdge?_text {e : Edge} (he : e.IsLegible) : readEdge? (Statement.edge e).text = some e := by
  have hline : onlyLine? (Statement.edge e).text = some (signs e.line) :=
    onlyLine?_layout he.signs_line.1 he.isTidy_line he.lineFeed_not_mem
  obtain ⟨houtputs, hwords⟩ := he.lineWords_line
  obtain ⟨paths, hpaths, hinputs, himplicit⟩ := he.cut_wordSigns
  have hkeyword : meaning (signs "build") = "build" := rfl
  have hmeant (part : List Path) (hpart : ∀ path ∈ part, path ∈ e.outputs ++ e.inputs ++ e.implicit) :
      ((part.map escape).map signs).map meaning = part :=
    meaning_words fun path hpath => (he.paths path (hpart path hpath)).1
  unfold readEdge?
  rw [hline, Option.bind_eq_bind, Option.bind_some]
  simp only [houtputs, hwords, hpaths, hinputs, himplicit, if_pos hkeyword, he.rule.meaning_eq]
  rw [Edge.outputSigns, hmeant e.outputs (by simp +contextual), hmeant e.inputs (by simp +contextual),
    hmeant e.implicit (by simp +contextual)]

end CprojNinja.Ninja
