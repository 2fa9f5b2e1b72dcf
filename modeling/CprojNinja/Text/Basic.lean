/-!
# Text

Every text of the program is a list of characters. A list and not a packed string, because the rules of the program
(escaping, wrapping, splitting of names, detection of flags) are stated character by character and reasoned about by
induction on the characters. Packed strings appear only where files and the command line are read and written.

The functions below are the few searches that the other modules share. All of them are recursions on the text.
-/

namespace CprojNinja

/-- A text: its characters in order. -/
abbrev Text := List Char

/-- A string literal may stand for its characters. -/
instance : Coe String Text := ⟨String.toList⟩

namespace Text

/-! ## Size -/

/-- The number of bytes that a text takes in UTF-8. -/
def byteWidth : Text → Nat
  | [] => 0
  | c :: s => c.utf8Size + byteWidth s

@[simp] theorem byteWidth_nil : byteWidth [] = 0 := rfl

@[simp] theorem byteWidth_cons (c : Char) (s : Text) : byteWidth (c :: s) = c.utf8Size + byteWidth s := rfl

@[simp] theorem byteWidth_append (s t : Text) : byteWidth (s ++ t) = byteWidth s + byteWidth t := by
  induction s with
  | nil => simp
  | cons c s ih => rw [List.cons_append, byteWidth_cons, byteWidth_cons, ih, Nat.add_assoc]

/-! ## Both ends -/

/-- Whether `s` starts with `start`. -/
def startsWith (start s : Text) : Bool := start.isPrefixOf s

theorem startsWith_iff {start s : Text} : startsWith start s = true ↔ start <+: s := List.isPrefixOf_iff_prefix

/-- Whether `s` ends with `ending`. -/
def endsWith (ending s : Text) : Bool := ending.isSuffixOf s

theorem endsWith_iff {ending s : Text} : endsWith ending s = true ↔ ending <:+ s := List.isSuffixOf_iff_suffix

/-- What follows `start` in `s`, if `s` starts with it. -/
def dropStart? : (start s : Text) → Option Text
  | [], s => some s
  | _ :: _, [] => none
  | p :: ps, c :: s => if p = c then dropStart? ps s else none

/-- The lemma that pins down `dropStart?`. -/
theorem dropStart?_eq_some {p s r : Text} : dropStart? p s = some r ↔ s = p ++ r := by
  induction p generalizing s with
  | nil => simp [dropStart?, eq_comm]
  | cons a p ih =>
    cases s with
    | nil => simp [dropStart?]
    | cons c s =>
      by_cases h : a = c
      · simp [dropStart?, h, ih]
      · simp only [dropStart?, if_neg h, List.cons_append, List.cons.injEq]
        exact ⟨fun h' => by simp at h', fun h' => absurd h'.1.symm h⟩

/-- What precedes `ending` in `s`, if `s` ends with it. -/
def dropEnd? (ending s : Text) : Option Text :=
  (dropStart? ending.reverse s.reverse).map List.reverse

/-- `s` without `start`, or `s` itself if it does not start so. -/
def withoutStart (start s : Text) : Text := (dropStart? start s).getD s

/-- `s` without `ending`, or `s` itself if it does not end so. -/
def withoutEnd (ending s : Text) : Text := (dropEnd? ending s).getD s

theorem withoutStart_suffix (start s : Text) : withoutStart start s <:+ s := by
  unfold withoutStart
  cases h : dropStart? start s with
  | none => exact List.suffix_rfl
  | some rest => exact ⟨start, (dropStart?_eq_some.1 h).symm⟩

theorem withoutEnd_prefix (ending s : Text) : withoutEnd ending s <+: s := by
  unfold withoutEnd dropEnd?
  cases h : dropStart? ending.reverse s.reverse with
  | none => exact List.prefix_rfl
  | some rest =>
    have hs : s = rest.reverse ++ ending := by simpa using congrArg List.reverse (dropStart?_eq_some.1 h)
    exact ⟨ending, hs.symm⟩

/-- `s` without the longest run of characters in `p` at its end. -/
def trimEnd (p : Char → Bool) (s : Text) : Text := (s.reverse.dropWhile p).reverse

/-- What is trimmed is a run of characters in `p`. -/
theorem exists_trimEnd_append (p : Char → Bool) (s : Text) :
    ∃ rest, s = trimEnd p s ++ rest ∧ ∀ c ∈ rest, p c = true := by
  refine ⟨(s.reverse.takeWhile p).reverse, ?_, fun c hc => ?_⟩
  · rw [trimEnd, ← List.reverse_append, List.takeWhile_append_dropWhile, List.reverse_reverse]
  · exact List.all_eq_true.1 List.all_takeWhile c (List.mem_reverse.1 hc)

/-! ## Search -/

/-- Whether `pattern` occurs anywhere in `s`. -/
def occursIn (pattern : Text) : Text → Bool
  | [] => pattern.isEmpty
  | c :: s => startsWith pattern (c :: s) || occursIn pattern s

/-- A pattern occurs in a text if the text is put together from it and two other parts. -/
theorem occursIn_iff {pattern s : Text} : occursIn pattern s = true ↔ pattern <:+: s := by
  induction s with
  | nil => simp [occursIn]
  | cons c s ih =>
    rw [occursIn, Bool.or_eq_true, startsWith_iff, ih]
    exact List.infix_cons_iff.symm

/-- The parts of `s` before and after the first occurrence of `mark`. -/
def cutAt? (mark : Text) : Text → Option (Text × Text)
  | [] => if mark.isEmpty then some ([], []) else none
  | c :: s =>
    match dropStart? mark (c :: s) with
    | some rest => some ([], rest)
    | none => (cutAt? mark s).map fun (before, after) => (c :: before, after)

/-- A cut gives the parts around one occurrence of the mark. -/
theorem eq_of_cutAt? {mark s before after : Text} (h : cutAt? mark s = some (before, after)) :
    s = before ++ mark ++ after := by
  induction s generalizing before with
  | nil =>
    unfold cutAt? at h
    split at h
    · next hm => simp_all
    · cases h
  | cons c s ih =>
    unfold cutAt? at h
    split at h
    · next rest hr => cases h; simpa using dropStart?_eq_some.1 hr
    · obtain ⟨⟨b, a⟩, hb, hc⟩ := Option.map_eq_some_iff.1 h
      cases hc
      simp [ih hb]

/-- The parts of `s` before and after the last character with property `p`, and that character. -/
def cutLast? (p : Char → Bool) : Text → Option (Text × Char × Text)
  | [] => none
  | c :: s =>
    match cutLast? p s with
    | some (before, d, after) => some (c :: before, d, after)
    | none => if p c then some ([], c, s) else none

/-- A cut gives the parts around one character. -/
theorem eq_of_cutLast? {p : Char → Bool} {s before after : Text} {d : Char}
    (h : cutLast? p s = some (before, d, after)) : s = before ++ d :: after := by
  induction s generalizing before with
  | nil => cases h
  | cons c s ih =>
    unfold cutLast? at h
    split at h
    · next hs => cases h; simp [ih hs]
    · split at h
      · cases h; rfl
      · cases h

/-- The pieces of `s` between occurrences of `separator`; one piece if there is none. -/
def splitOn (separator : Char) : Text → List Text
  | [] => [[]]
  | c :: s =>
    if c = separator then [] :: splitOn separator s
    else (splitOn separator s).modifyHead (c :: ·)

/-- A text has at least one piece. -/
theorem splitOn_ne_nil (separator : Char) (s : Text) : splitOn separator s ≠ [] := by
  induction s with
  | nil => simp [splitOn]
  | cons c s ih =>
    unfold splitOn
    split
    · simp
    · cases h : splitOn separator s with
      | nil => exact absurd h ih
      | cons piece pieces => simp

/-- No piece holds the separator. -/
theorem not_mem_of_mem_splitOn {separator : Char} {s piece : Text} (h : piece ∈ splitOn separator s) :
    separator ∉ piece := by
  induction s generalizing piece with
  | nil =>
    rw [List.mem_singleton.1 h]
    exact List.not_mem_nil
  | cons c s ih =>
    unfold splitOn at h
    split at h
    · rcases List.mem_cons.1 h with rfl | h
      · exact List.not_mem_nil
      · exact ih h
    · next hc =>
      cases hs : splitOn separator s with
      | nil => exact absurd hs (splitOn_ne_nil _ _)
      | cons first pieces =>
        rw [hs, List.modifyHead_cons, List.mem_cons] at h
        rw [hs] at ih
        rcases h with rfl | h
        · rw [List.mem_cons, not_or]
          exact ⟨Ne.symm hc, ih List.mem_cons_self⟩
        · exact ih (List.mem_cons_of_mem _ h)

/-- The pieces are those of a list. -/
theorem splitOn_eq (separator : Char) (s : Text) : splitOn separator s = List.splitOn separator s := by
  induction s with
  | nil => rfl
  | cons c s ih =>
    rw [splitOn, List.splitOn_cons_eq_if_modifyHead, ih]
    simp only [beq_iff_eq]

/-- Without a separator more text makes the last piece longer and leaves the others as they were. -/
theorem exists_splitOn_append {separator : Char} {t : Text} (h : separator ∉ t) (s : Text) :
    ∃ pieces last, splitOn separator s = pieces ++ [last] ∧ splitOn separator (s ++ t) = pieces ++ [last ++ t] := by
  induction s with
  | nil =>
    refine ⟨[], [], rfl, ?_⟩
    rw [splitOn_eq, List.nil_append, List.splitOn_eq_singleton h]
    rfl
  | cons c s ih =>
    obtain ⟨pieces, last, hs, hst⟩ := ih
    rw [List.cons_append, splitOn, splitOn, hs, hst]
    by_cases hc : c = separator
    · rw [if_pos hc, if_pos hc]
      exact ⟨[] :: pieces, last, rfl, rfl⟩
    · rw [if_neg hc, if_neg hc]
      cases pieces with
      | nil => exact ⟨[], c :: last, rfl, rfl⟩
      | cons first pieces => exact ⟨(c :: first) :: pieces, last, rfl, rfl⟩

/-- The lines of `s`: a line feed ends a line, together with one carriage return before it, and what follows the last
line feed is a line only if it is not empty. -/
def lines (s : Text) : List Text :=
  let pieces := splitOn '\n' s
  pieces.dropLast.map (withoutEnd ['\r']) ++ (pieces.getLast?.toList.filter (· ≠ []))

/-- The non-empty members of `parts`, in order. -/
def nonEmpty (parts : List Text) : List Text := parts.filter (· ≠ [])

/-- The texts of `parts` with `separator` between them. -/
def joinWith (separator : Text) (parts : List Text) : Text := separator.intercalate parts

theorem joinWith_cons_cons (part next : Text) (behind : List Text) :
    joinWith " " (part :: next :: behind) = part ++ ' ' :: joinWith " " (next :: behind) := by
  unfold joinWith
  rw [List.intercalate_cons_cons, List.append_assoc]
  rfl

theorem joinWith_nil_cons (separator : Text) {parts : List Text} (h : parts ≠ []) :
    joinWith separator ([] :: parts) = separator ++ joinWith separator parts := by
  cases parts with
  | nil => exact absurd rfl h
  | cons part parts => exact List.intercalate_cons_cons

/-- A character in front of the first part is in front of the whole. -/
theorem joinWith_modifyHead (separator : Text) (c : Char) {parts : List Text} (h : parts ≠ []) :
    joinWith separator (parts.modifyHead (c :: ·)) = c :: joinWith separator parts := by
  cases parts with
  | nil => exact absurd rfl h
  | cons part parts => cases parts <;> simp [joinWith]

/-! ## Replacement -/

/-- Walks over a text and replaces every occurrence of `pattern`; `skip` characters of an occurrence that is already
replaced are still to be passed. -/
def replaceFrom (pattern replacement : Text) : (skip : Nat) → Text → Text
  | _, [] => []
  | skip + 1, _ :: s => replaceFrom pattern replacement skip s
  | 0, c :: s =>
    if startsWith pattern (c :: s) then
      replacement ++ replaceFrom pattern replacement (pattern.length - 1) s
    else c :: replaceFrom pattern replacement 0 s

/-- `s` with `replacement` in place of every occurrence of the non-empty `pattern`, found from left to right without
overlap. -/
def replaceAll (pattern replacement s : Text) : Text := replaceFrom pattern replacement 0 s

/-- No occurrence reaches over a character that the pattern does not have. -/
theorem startsWith_append_cons {pattern : Text} {c : Char} (hc : c ∉ pattern) (s t : Text) :
    startsWith pattern (s ++ c :: t) = startsWith pattern s := by
  rw [Bool.eq_iff_iff, startsWith_iff, startsWith_iff]
  refine ⟨fun h => ?_, fun h => h.trans (List.prefix_append _ _)⟩
  have hs : s ++ [c] <+: s ++ c :: t := ⟨t, by simp⟩
  rcases List.prefix_or_prefix_of_prefix h hs with h | h
  · rcases List.prefix_concat_iff.1 h with h | h
    · exact absurd (by simp [h]) hc
    · exact h
  · exact absurd (h.subset (by simp)) hc

/-- A pattern occurs on one side of a character that it does not have. -/
theorem occursIn_append_cons {pattern : Text} {c : Char} (hc : c ∉ pattern) (s t : Text) :
    occursIn pattern (s ++ c :: t) = (occursIn pattern s || occursIn pattern t) := by
  induction s with
  | nil =>
    have hstart : startsWith pattern (c :: t) = startsWith pattern [] :=
      startsWith_append_cons hc [] t
    show (startsWith pattern (c :: t) || occursIn pattern t) = (pattern.isEmpty || occursIn pattern t)
    rw [hstart]
    cases pattern <;> rfl
  | cons d s ih =>
    have hstart := startsWith_append_cons hc (d :: s) t
    rw [List.cons_append] at hstart ⊢
    rw [occursIn, occursIn, hstart, ih, Bool.or_assoc]

theorem replaceFrom_append_cons {pattern : Text} {c : Char} (hne : pattern ≠ []) (hc : c ∉ pattern)
    (replacement t : Text) {skip : Nat} {s : Text} (hskip : skip ≤ s.length) :
    replaceFrom pattern replacement skip (s ++ c :: t) =
      replaceFrom pattern replacement skip s ++ c :: replaceFrom pattern replacement 0 t := by
  induction s generalizing skip with
  | nil =>
    have hstart : ¬ startsWith pattern (c :: t) = true := by
      rw [← List.nil_append (c :: t), startsWith_append_cons hc, startsWith_iff, List.prefix_nil]
      exact hne
    have hzero : skip = 0 := Nat.le_zero.1 hskip
    rw [hzero, List.nil_append]
    exact if_neg hstart
  | cons d s ih =>
    cases skip with
    | succ skip => exact ih (Nat.le_of_succ_le_succ hskip)
    | zero =>
      have hstart := startsWith_append_cons hc (d :: s) t
      rw [List.cons_append] at hstart ⊢
      rw [replaceFrom, replaceFrom, hstart]
      by_cases h : startsWith pattern (d :: s) = true
      · have hlength := (startsWith_iff.1 h).length_le
        rw [List.length_cons] at hlength
        rw [if_pos h, if_pos h, ih (by omega), List.append_assoc]
      · rw [if_neg h, if_neg h, ih (Nat.zero_le _), List.cons_append]

/-- A text is replaced part by part around a character that the pattern does not have. -/
theorem replaceAll_append_cons {pattern : Text} {c : Char} (hne : pattern ≠ []) (hc : c ∉ pattern)
    (replacement s t : Text) : replaceAll pattern replacement (s ++ c :: t) =
      replaceAll pattern replacement s ++ c :: replaceAll pattern replacement t :=
  replaceFrom_append_cons hne hc replacement t (Nat.zero_le _)

/-- A text in which the pattern does not occur stays as it is. -/
theorem replaceAll_of_not_occursIn {pattern s : Text} (replacement : Text) (h : occursIn pattern s = false) :
    replaceAll pattern replacement s = s := by
  unfold replaceAll
  induction s with
  | nil => rfl
  | cons c s ih =>
    rw [occursIn, Bool.or_eq_false_iff] at h
    rw [replaceFrom, h.1, ih h.2]
    rfl

end Text

end CprojNinja
