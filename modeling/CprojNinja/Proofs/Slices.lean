import CprojNinja.Graph.LinkerScript
import CprojNinja.Path
import CprojNinja.Proofs.Outcomes

/-!
# Slices at byte positions

Texts are stored as bytes, and a part of a text is taken between two positions in them. Such a slice exists only if both
positions are within the text and each lies at the start of a character; otherwise the run would stop. The functions on
paths and flags are stated on characters, where nothing of the kind can happen. Here each of them is put in terms of
positions and slices, and it is shown that all its slices exist and give what the function gives.
-/

namespace CprojNinja

namespace Text

/-! ## Slices -/

/-- The parts of a text before and after a position, if the position is in the text and not inside a character. -/
def splitAt? : Nat → Text → Option (Text × Text)
  | 0, s => some ([], s)
  | _ + 1, [] => none
  | i + 1, c :: s =>
    if c.utf8Size ≤ i + 1 then
      (splitAt? (i + 1 - c.utf8Size) s).map fun (before, after) => (c :: before, after)
    else none

/-- The slice up to a position. -/
def upTo? (i : Nat) (s : Text) : Option Text := (splitAt? i s).map Prod.fst

/-- The slice from a position on. -/
def from? (i : Nat) (s : Text) : Option Text := (splitAt? i s).map Prod.snd

theorem from?_succ_cons (i : Nat) (c : Char) (s : Text) :
    from? (i + 1) (c :: s) = if c.utf8Size ≤ i + 1 then from? (i + 1 - c.utf8Size) s else none := by
  unfold from?
  rw [splitAt?]
  split
  · rw [Option.map_map]
    rfl
  · rfl

theorem eq_of_splitAt? {i : Nat} {s before after : Text} (h : splitAt? i s = some (before, after)) :
    s = before ++ after ∧ byteWidth before = i := by
  fun_induction splitAt? i s generalizing before with
  | case1 s =>
    cases h
    exact ⟨rfl, rfl⟩
  | case2 i => cases h
  | case3 i c s hc ih =>
    obtain ⟨⟨rest, after⟩, hrest, hparts⟩ := Option.map_eq_some_iff.1 h
    cases hparts
    obtain ⟨hs, hwidth⟩ := ih hrest
    rw [byteWidth_cons, hwidth, List.cons_append, ← hs]
    exact ⟨rfl, Nat.add_sub_cancel' hc⟩
  | case4 i c s hc => cases h

theorem exists_byteWidth_cons_eq_succ (c : Char) (s : Text) : ∃ i, byteWidth (c :: s) = i + 1 :=
  Nat.exists_eq_succ_of_ne_zero (Nat.ne_of_gt (Nat.add_pos_left c.utf8Size_pos (byteWidth s)))

theorem splitAt?_append (before after : Text) :
    splitAt? (byteWidth before) (before ++ after) = some (before, after) := by
  induction before with
  | nil => cases after <;> rfl
  | cons c before ih =>
    obtain ⟨i, hi⟩ := exists_byteWidth_cons_eq_succ c before
    have hrest : i + 1 - c.utf8Size = byteWidth before := by rw [← hi, byteWidth_cons, Nat.add_sub_cancel_left]
    have hsize : c.utf8Size ≤ i + 1 := by rw [← hi, byteWidth_cons]; exact Nat.le_add_right _ _
    rw [hi, List.cons_append, splitAt?, if_pos hsize, hrest, ih]
    rfl

theorem upTo?_append (before after : Text) : upTo? (byteWidth before) (before ++ after) = some before := by
  rw [upTo?, splitAt?_append, Option.map_some]

theorem from?_append (before after : Text) : from? (byteWidth before) (before ++ after) = some after := by
  rw [from?, splitAt?_append, Option.map_some]

/-- What is behind a character of one byte starts right after its position. -/
theorem from?_append_cons (before after : Text) {c : Char} (hc : c.utf8Size = 1) :
    from? (byteWidth before + 1) (before ++ c :: after) = some after := by
  rw [List.append_cons, ← hc, ← from?_append (before ++ [c]) after, byteWidth_append, byteWidth_cons, byteWidth_nil,
    Nat.add_zero]

example : from? 1 ['e', '.', 'c'] = some ['.', 'c'] ∧ from? 1 ['é', '.', 'c'] = none := ⟨rfl, rfl⟩

/-- A slice from a later position than the start is shorter than the text. -/
theorem length_of_from? {i : Nat} {s after : Text} (h : from? i s = some after) (hi : 0 < i) :
    after.length < s.length := by
  obtain ⟨⟨before, after⟩, hsplit, rfl⟩ := Option.map_eq_some_iff.1 h
  obtain ⟨rfl, hwidth⟩ := eq_of_splitAt? hsplit
  cases before with
  | nil => exact absurd hwidth (Nat.ne_of_lt hi)
  | cons c before =>
    show after.length < (c :: before ++ after).length
    rw [List.length_append, List.length_cons]
    omega

/-- The position of the last character with property `p`. -/
def lastIndex? (p : Char → Bool) : Text → Option Nat
  | [] => none
  | c :: s =>
    match lastIndex? p s with
    | some i => some (c.utf8Size + i)
    | none => if p c then some 0 else none

theorem lastIndex?_eq (p : Char → Bool) (s : Text) :
    lastIndex? p s = (cutLast? p s).map fun (before, _, _) => byteWidth before := by
  induction s with
  | nil => rfl
  | cons c s ih =>
    rw [lastIndex?, cutLast?, ih]
    cases cutLast? p s with
    | some cut => rfl
    | none => by_cases hc : p c = true <;> simp [hc]

theorem holds_of_cutLast? {p : Char → Bool} {s before after : Text} {c : Char}
    (h : cutLast? p s = some (before, c, after)) : p c = true := by
  induction s generalizing before with
  | nil => cases h
  | cons d s ih =>
    unfold cutLast? at h
    split at h
    · next hs =>
      cases h
      exact ih hs
    · split at h
      · next hd =>
        cases h
        exact hd
      · cases h

/-- The slices around the last character of a kind exist if such characters take one byte. -/
theorem slices_of_cutLast? {p : Char → Bool} {s before after : Text} {c : Char}
    (hp : ∀ d, p d = true → d.utf8Size = 1) (h : cutLast? p s = some (before, c, after)) :
    lastIndex? p s = some (byteWidth before) ∧ upTo? (byteWidth before) s = some before ∧
      from? (byteWidth before + 1) s = some after := by
  have hs := eq_of_cutLast? h
  refine ⟨?_, ?_, ?_⟩
  · rw [lastIndex?_eq, h]
    rfl
  · rw [hs, upTo?_append]
  · rw [hs, from?_append_cons _ _ (hp c (holds_of_cutLast? h))]

end Text

/-! ## Paths -/

namespace Path

open Text (byteWidth from? lastIndex? startsWith upTo?)

/-- `splitBase` by positions. -/
def splitBaseAt? (path : Path) : Option (Path × Text) :=
  match lastIndex? (· = '/') path with
  | some i => do return (← upTo? i path, ← from? (i + 1) path)
  | none => some ([], path)

theorem splitBaseAt?_eq (path : Path) : splitBaseAt? path = some (splitBase path) := by
  unfold splitBaseAt? splitBase
  cases hcut : Text.cutLast? (· = '/') path with
  | none =>
    rw [Text.lastIndex?_eq, hcut]
    rfl
  | some cut =>
    obtain ⟨directory, slash, base⟩ := cut
    obtain ⟨hindex, hbefore, hafter⟩ := Text.slices_of_cutLast? (by simp; decide) hcut
    simp only [hindex, hbefore, hafter]
    rfl

/-- The difference of two numbers that are never negative. -/
def difference? (m n : Nat) : Option Nat := if n ≤ m then some (m - n) else none

/-- `splitDot` by positions, where the base name is the end of a path and is split together with what stands before. -/
def splitDotAt? (path : Path) (base : Text) : Option (Path × Text) :=
  match lastIndex? (· = '.') base with
  | some 0 | none => some (path, [])
  | some i => do
    let start ← difference? (byteWidth path) (byteWidth base)
    return (← upTo? (start + i) path, ← from? (start + i) path)

theorem splitDotAt?_eq (lead : Path) (base : Text) :
    splitDotAt? (lead ++ base) base = some (lead ++ (splitDot base).1, (splitDot base).2) := by
  unfold splitDotAt? splitDot
  rw [Text.lastIndex?_eq]
  cases hcut : Text.cutLast? (· = '.') base with
  | none => rfl
  | some cut =>
    obtain ⟨stem, dot, extension⟩ := cut
    cases stem with
    | nil => rfl
    | cons c stem =>
      have hbase := Text.eq_of_cutLast? hcut
      obtain ⟨i, hi⟩ := Text.exists_byteWidth_cons_eq_succ c stem
      have hstart : difference? (byteWidth (lead ++ base)) (byteWidth base) = some (byteWidth lead) := by
        rw [difference?, Text.byteWidth_append, if_pos (Nat.le_add_left _ _), Nat.add_sub_cancel]
      have hwidth : byteWidth lead + (i + 1) = byteWidth (lead ++ c :: stem) := by
        rw [Text.byteWidth_append, hi]
      have hparts : lead ++ base = (lead ++ c :: stem) ++ dot :: extension := by
        rw [hbase, List.append_assoc]
      simp only [Option.map_some, hi, hstart, Option.bind_eq_bind, Option.bind_some, hwidth]
      rw [hparts, Text.upTo?_append, Text.from?_append]
      rfl

/-- `splitExtension` by positions. -/
def splitExtensionAt? (path : Path) : Option (Path × Text) := do
  let (_, base) ← splitBaseAt? path
  splitDotAt? path base

theorem splitExtensionAt?_eq (path : Path) : splitExtensionAt? path = some (splitExtension path) := by
  unfold splitExtensionAt? splitExtension
  rw [splitBaseAt?_eq, splitBase]
  cases hcut : Text.cutLast? (· = '/') path with
  | none => exact splitDotAt?_eq [] path
  | some cut =>
    obtain ⟨directory, slash, base⟩ := cut
    have hpath : path = (directory ++ [slash]) ++ base := by
      rw [Text.eq_of_cutLast? hcut, List.append_assoc, List.singleton_append]
    show splitDotAt? path base = _
    rw [hpath, splitDotAt?_eq, List.append_assoc, List.singleton_append]

/-- `directoryName` by positions. -/
def directoryNameAt? (path : Path) : Option Text :=
  let isSeparator (c : Char) : Bool := c = '/' || c = '\\'
  let path := Text.trimEnd isSeparator path
  match lastIndex? isSeparator path with
  | some i => from? (i + 1) path
  | none => some path

theorem directoryNameAt?_eq (path : Path) : directoryNameAt? path = some (directoryName path) := by
  unfold directoryNameAt? directoryName
  dsimp only
  generalize Text.trimEnd _ path = trimmed
  cases hcut : Text.cutLast? (fun c => decide (c = '/') || decide (c = '\\')) trimmed with
  | none =>
    rw [Text.lastIndex?_eq, hcut]
    rfl
  | some cut =>
    obtain ⟨directory, separator, name⟩ := cut
    obtain ⟨hindex, -, hafter⟩ := Text.slices_of_cutLast? (by simp; decide) hcut
    simp only [hindex, hafter]

/-- `dropParents` by positions: what cannot be cut counts as empty. -/
def dropParentsAt (path : Path) : Path :=
  if _h : startsWith ".." path = true then dropParentsAt ((from? 3 path).getD []) else path
termination_by path.length
decreasing_by
  cases hrest : from? 3 path with
  | some rest => exact Text.length_of_from? hrest (by decide)
  | none => exact List.length_pos_of_ne_nil (by rintro rfl; cases _h)

theorem dropParentsAt_of_startsWith {path : Path} (h : startsWith ".." path = true) :
    dropParentsAt path = dropParentsAt ((from? 3 path).getD []) := by
  rw [dropParentsAt, dif_pos h]

theorem dropParentsAt_of_not_startsWith {path : Path} (h : ¬ startsWith ".." path = true) :
    dropParentsAt path = path := by
  rw [dropParentsAt, dif_neg h]

/-- Behind two dots one more byte is dropped if it is a whole character. -/
theorem from?_three_of_byte {c : Char} (hc : c.utf8Size = 1) (rest : Path) :
    from? 3 ('.' :: '.' :: c :: rest) = some rest := by
  have hwidth : byteWidth ['.', '.'] + 1 = 3 := rfl
  rw [← hwidth]
  exact Text.from?_append_cons ['.', '.'] rest hc

/-- A longer character behind two dots cannot be cut. -/
theorem from?_three_of_longer {c : Char} (hc : ¬ c.utf8Size = 1) (rest : Path) :
    from? 3 ('.' :: '.' :: c :: rest) = none := by
  have hdot : '.'.utf8Size = 1 := rfl
  have hwide : ¬ c.utf8Size ≤ 0 + 1 := fun h => hc (Nat.le_antisymm h c.utf8Size_pos)
  rw [Text.from?_succ_cons, hdot, if_pos (by decide), Nat.add_sub_cancel, Text.from?_succ_cons, hdot,
    if_pos (by decide), Nat.add_sub_cancel, Text.from?_succ_cons, if_neg hwide]

theorem dropParentsAt_eq (path : Path) : dropParentsAt path = dropParents path := by
  have hnil : dropParentsAt [] = [] := dropParentsAt_of_not_startsWith (by decide)
  fun_induction dropParents path with
  | case1 c rest hc ih =>
    -- the only case in which something is left after the cut
    rw [dropParentsAt_of_startsWith rfl, from?_three_of_byte hc, Option.getD_some, ih]
  | case2 c rest hc =>
    rw [dropParentsAt_of_startsWith rfl, from?_three_of_longer hc]
    exact hnil
  | case3 =>
    rw [dropParentsAt_of_startsWith rfl]
    exact hnil
  | case4 path h h' =>
    refine dropParentsAt_of_not_startsWith fun hstart => ?_
    obtain ⟨rest, rfl⟩ := Text.startsWith_iff.1 hstart
    cases rest with
    | nil => exact h' rfl
    | cons c rest => exact h c rest rfl

end Path

/-! ## Flags -/

/-- The positions at which a pattern occurs in a text whose first character has a certain position; `skip` characters of
an occurrence are still to be passed. -/
def Text.occurrencesFrom (pattern : Text) : (skip position : Nat) → Text → List Nat
  | _, _, [] => []
  | skip + 1, position, c :: s => occurrencesFrom pattern skip (position + c.utf8Size) s
  | 0, position, c :: s =>
    if startsWith pattern (c :: s) then
      position :: occurrencesFrom pattern (pattern.length - 1) (position + c.utf8Size) s
    else occurrencesFrom pattern 0 (position + c.utf8Size) s

/-- `scriptsIn` by positions. -/
def scriptsInAt? (flag : Text) : Option (List Text) :=
  (Text.occurrencesFrom "-T" 0 0 flag).mapM fun i => (Text.from? (i + 2) flag).map scriptPath

theorem mapM_occurrencesFrom (before s : Text) {skip : Nat} (hskip : skip = 0 ∨ skip = 1 ∧ s.head? = some 'T') :
    (Text.occurrencesFrom "-T" skip (Text.byteWidth before) s).mapM
      (fun i => (Text.from? (i + 2) (before ++ s)).map scriptPath) = some (scriptsIn s) := by
  induction s generalizing before skip with
  | nil => cases skip <;> rfl
  | cons c s ih =>
    have hbefore : before ++ c :: s = (before ++ [c]) ++ s := List.append_cons before c s
    have hwidth : Text.byteWidth before + c.utf8Size = Text.byteWidth (before ++ [c]) := by simp
    -- after an occurrence the search passes its second character, which begins no occurrence itself
    rcases hskip with rfl | ⟨rfl, hc⟩
    · unfold Text.occurrencesFrom scriptsIn
      rw [hwidth]
      cases hrest : Text.dropStart? "-T" (c :: s) with
      | none =>
        have hstart : ¬ Text.startsWith "-T" (c :: s) = true := fun hstart => by
          obtain ⟨rest, hs⟩ := Text.startsWith_iff.1 hstart
          rw [Text.dropStart?_eq_some.2 hs.symm] at hrest
          cases hrest
        rw [if_neg hstart, hbefore, ih (before ++ [c]) (Or.inl rfl)]
      | some rest =>
        have hs := Text.dropStart?_eq_some.1 hrest
        have hslice : Text.from? (Text.byteWidth before + 2) (before ++ c :: s) = some rest := by
          have hmark : Text.byteWidth before + 2 = Text.byteWidth (before ++ "-T") := by
            rw [Text.byteWidth_append]
            rfl
          rw [hmark, hs, ← List.append_assoc, Text.from?_append]
        have hhead : s.head? = some 'T' := by
          cases hs
          rfl
        have hscripts := ih (before ++ [c]) (Or.inr ⟨rfl, hhead⟩)
        rw [← hbefore] at hscripts
        rw [if_pos (Text.startsWith_iff.2 ⟨rest, hs.symm⟩), List.mapM_cons, hslice]
        exact congrArg (Option.bind · _) hscripts
    · obtain rfl : c = 'T' := Option.some.inj hc
      rw [Text.occurrencesFrom, hwidth, hbefore, ih (before ++ ['T']) (Or.inl rfl)]
      rfl

theorem scriptsInAt?_eq (flag : Text) : scriptsInAt? flag = some (scriptsIn flag) :=
  mapM_occurrencesFrom [] flag (Or.inl rfl)

end CprojNinja
