import CprojNinja.Proofs.LineBreaks

/-!
# Reading bindings

A binding is read as ninja reads it: its lines are joined, what stands before the equals sign is the name of a variable,
and what stands behind it is the value. Blanks at the start of a line that was broken off belong to its indentation for
the reader, also those that were there before.

Main statement: exactly those blanks are lost. A value is read back if no line is broken right before a blank, for
instance if it has no two blanks in a row; otherwise it is read with fewer blanks than it has.
-/

namespace CprojNinja.Ninja

/-! ## The reader -/

/-- The sign between the name and the value of a variable. -/
def equals : Sign := .plain '='

/-- The name and the value that a text binds. The blanks around the equals sign belong to neither. -/
def readBinding? (s : Text) : Option (Text × Text) := do
  let line ← onlyLine? s
  if equals ∈ line then
    some (meaning ((line.takeWhile (· ≠ equals)).takeWhile (· ≠ .blank)),
      meaning (((line.dropWhile (· ≠ equals)).drop 1).dropWhile (· = .blank)))
  else none

/-! ## Joined contents -/

/-- What is left of some contents when their lines are joined. -/
def joinedContents : List Text → Text
  | [] => []
  | [content] => content
  | content :: next :: behind => content ++ ' ' :: (joinedContents (next :: behind)).dropWhile (· = ' ')

/-- Whether no text is broken right before a blank: what is left behind a break does not start with one. -/
def BreaksBeforeWords (contents : List Text) : Prop :=
  ∀ before rest, contents = before ++ rest → before ≠ [] → (Text.joinWith " " rest).head? ≠ some ' '

section Joined

variable {contents : List Text} {content next : Text} {behind : List Text}

theorem joinedContents_sublist (contents : List Text) :
    (joinedContents contents).Sublist (Text.joinWith " " contents) := by
  induction contents with
  | nil => simp [joinedContents, Text.joinWith]
  | cons content behind ih =>
    cases behind with
    | nil => simp [joinedContents, Text.joinWith]
    | cons next behind =>
      rw [joinedContents, Text.joinWith_cons_cons, List.append_sublist_append_left, List.cons_sublist_cons]
      exact (List.dropWhile_sublist _).trans ih

theorem filter_dropWhile_blank (s : Text) : (s.dropWhile (· = ' ')).filter (· ≠ ' ') = s.filter (· ≠ ' ') := by
  induction s with
  | nil => rfl
  | cons c s ih =>
    by_cases hc : c = ' '
    · rw [List.dropWhile_cons_of_pos (by simpa using hc), ih, List.filter_cons_of_neg (by simpa using hc)]
    · rw [List.dropWhile_cons_of_neg (by simpa using hc)]

/-- Nothing but blanks is lost. -/
theorem filter_joinedContents (contents : List Text) :
    (joinedContents contents).filter (· ≠ ' ') = (Text.joinWith " " contents).filter (· ≠ ' ') := by
  induction contents with
  | nil => simp [joinedContents, Text.joinWith]
  | cons content behind ih =>
    cases behind with
    | nil => simp [joinedContents, Text.joinWith]
    | cons next behind =>
      rw [joinedContents, Text.joinWith_cons_cons, List.filter_append, List.filter_append,
        List.filter_cons_of_neg (by decide), List.filter_cons_of_neg (by decide), filter_dropWhile_blank, ih]

theorem breaksBeforeWords_cons : BreaksBeforeWords (content :: behind) ↔
    (Text.joinWith " " behind).head? ≠ some ' ' ∧ BreaksBeforeWords behind := by
  constructor
  · intro h
    refine ⟨h [content] behind rfl (List.cons_ne_nil _ _), ?_⟩
    intro before rest hbehind _
    exact h (content :: before) rest (by rw [hbehind, List.cons_append]) (List.cons_ne_nil _ _)
  · rintro ⟨hhead, hbehind⟩ before rest hsplit hne
    cases before with
    | nil => exact absurd rfl hne
    | cons c before =>
      obtain ⟨-, hrest⟩ := List.cons.inj hsplit
      by_cases hbefore : before = []
      · subst hbefore
        cases hrest
        exact hhead
      · exact hbehind before rest hrest hbefore

theorem dropWhile_eq_self_iff_head? (s : Text) : s.dropWhile (· = ' ') = s ↔ s.head? ≠ some ' ' := by
  rw [List.dropWhile_eq_self_iff]
  cases s <;> simp

/-- A text is got back exactly if no blank is dropped. -/
theorem joinedContents_eq_iff (contents : List Text) :
    joinedContents contents = Text.joinWith " " contents ↔ BreaksBeforeWords contents := by
  induction contents with
  | nil =>
    refine iff_of_true (by simp [joinedContents, Text.joinWith]) ?_
    intro before rest hsplit hne
    exact absurd (List.append_eq_nil_iff.1 hsplit.symm).1 hne
  | cons content behind ih =>
    rw [breaksBeforeWords_cons, ← ih]
    cases behind with
    | nil => simp [joinedContents, Text.joinWith]
    | cons next behind =>
      have hjoined := joinedContents_sublist (next :: behind)
      rw [joinedContents, Text.joinWith_cons_cons, List.append_cancel_left_eq, List.cons.injEq, and_iff_right rfl]
      constructor
      · intro heq
        -- each blank that is dropped makes the text shorter, so there is none
        have hsame : (joinedContents (next :: behind)).dropWhile (· = ' ') = joinedContents (next :: behind) :=
          (List.dropWhile_sublist _).antisymm (by rw [heq]; exact hjoined)
        rw [hsame] at heq
        rw [← heq]
        exact ⟨(dropWhile_eq_self_iff_head? _).1 hsame, rfl⟩
      · rintro ⟨hhead, heq⟩
        rw [heq]
        exact (dropWhile_eq_self_iff_head? _).2 hhead

/-- What stands before all blanks that might be dropped is not touched. -/
theorem exists_joinedContents_eq_append {start rest : Text} (h : Text.joinWith " " contents = start ++ rest)
    (hsingle : ∀ before after, start ++ rest = before ++ ' ' :: ' ' :: after → start.length ≤ before.length) :
    ∃ rest', joinedContents contents = start ++ rest' := by
  induction contents generalizing start with
  | nil => exact ⟨rest, by simpa [joinedContents, Text.joinWith] using h⟩
  | cons content behind ih =>
    cases behind with
    | nil => exact ⟨rest, by simpa [joinedContents, Text.joinWith] using h⟩
    | cons next behind =>
      rw [Text.joinWith_cons_cons, List.append_cons] at h
      rw [joinedContents, List.append_cons]
      rcases List.append_eq_append_iff.1 h with ⟨more, hstart, hmore⟩ | ⟨more, hcontent, -⟩
      · rw [hstart] at hsingle ⊢
        cases more with
        | nil => exact ⟨(joinedContents (next :: behind)).dropWhile (· = ' '), by rw [List.append_nil]⟩
        | cons c more =>
          have hbehind (before after : Text) (hblanks : c :: more ++ rest = before ++ ' ' :: ' ' :: after) :
              (c :: more).length ≤ before.length := by
            have hlength := hsingle (content ++ [' '] ++ before) after (by
              rw [List.append_assoc _ (c :: more), hblanks]
              simp)
            simp only [List.length_append] at hlength
            omega
          -- otherwise there are two blanks where the text is broken
          have hc : c ≠ ' ' := by
            rintro rfl
            have hlength := hsingle content (more ++ rest) (by simp)
            simp only [List.length_append, List.length_cons] at hlength
            omega
          obtain ⟨rest', hrest⟩ := ih hmore hbehind
          refine ⟨rest', ?_⟩
          rw [hrest, List.cons_append, List.dropWhile_cons_of_neg (by simpa using hc), ← List.cons_append,
            List.append_assoc _ (c :: more)]
      · exact ⟨_, by rw [hcontent, List.append_assoc]⟩

end Joined

/-! ## The lines of a text without dollars -/

theorem dropWhile_map_plain (s : Text) : (s.map Sign.plain).dropWhile (· = .blank) =
    (s.dropWhile (· = ' ')).map .plain := by
  rw [List.dropWhile_map]
  congr 2
  funext c
  simp [Sign.blank]

theorem joined_joinLines_plain (lead nextLead : Nat) {contents : List Text} (hne : contents ≠ [])
    (hdollar : ∀ c ∈ contents, '$' ∉ c) : joined (signs (joinLines lead nextLead contents)) =
      List.replicate lead .blank ++ (joinedContents contents).map .plain ++ [.plain '\n'] := by
  induction contents generalizing lead with
  | nil => exact absurd rfl hne
  | cons content behind ih =>
    obtain ⟨hcontent, hbehind⟩ := List.forall_mem_cons.1 hdollar
    obtain ⟨hwhole, hsigns⟩ := isWhole_of_not_mem hcontent
    have hunbroken : Sign.escaped '\n' ∉ signs content := by
      rw [hsigns]
      simp
    cases behind with
    | nil =>
      have hlast := joined_lastLine lead hwhole hunbroken
      rw [hsigns] at hlast
      exact hlast
    | cons next behind =>
      have hrest := ih nextLead (List.cons_ne_nil _ _) hbehind
      have hblanks : ∀ g ∈ List.replicate nextLead Sign.blank, decide (g = .blank) = true := by simp
      rw [joinLines_cons _ _ _ (List.cons_ne_nil _ _), joined_brokenLine lead hwhole hunbroken, hrest, hsigns,
        List.append_assoc (List.replicate nextLead _), List.dropWhile_append_of_pos hblanks]
      show _ ++ Sign.blank :: (_ ++ feed :: []).dropWhile _ = _
      rw [dropWhile_append_feed, dropWhile_map_plain, joinedContents, List.map_append, List.map_cons]
      simp [Sign.blank, feed]

/-- The one line of a text without dollars: what is left of its contents when they are joined. -/
theorem onlyLine?_layout_plain {s : Text} (hdollar : '$' ∉ s) (hfeed : '\n' ∉ s) :
    onlyLine? (layout 0 s) = some ((joinedContents (contents 0 4 s)).map .plain) := by
  have hjoin := joinWith_contents 0 4 s
  have hcontents : ∀ c ∈ contents 0 4 s, '$' ∉ c := by
    intro c hc hmem
    apply hdollar
    rw [← hjoin]
    exact mem_joinWith hc hmem
  have hline : Sign.plain '\n' ∉ (joinedContents (contents 0 4 s)).map Sign.plain := by
    intro hmem
    obtain ⟨c, hc, hplain⟩ := List.mem_map.1 hmem
    cases hplain
    apply hfeed
    rw [← hjoin]
    exact (joinedContents_sublist _).subset hc
  exact onlyLine?_of_joined (joined_joinLines_plain 0 4 (contents_ne_nil 0 4 s) hcontents) hline

/-! ## Bindings -/

section Binding

variable {name value : Text}

/-- What stands before the value of a binding. -/
def bindingStart (name : Text) : Text := name ++ " = "

/-- Two blanks in a row can only stand in the value, and not at its start. -/
theorem eq_append_of_blanks {before after : Text} (hname : ' ' ∉ name) (hhead : value.head? ≠ some ' ')
    (h : bindingStart name ++ value = before ++ ' ' :: ' ' :: after) :
    ∃ c more, before = bindingStart name ++ c :: more ∧ value = c :: more ++ ' ' :: ' ' :: after := by
  have hmore : ∃ more : Text, before = name ++ more ∧ ' ' :: '=' :: ' ' :: value = more ++ ' ' :: ' ' :: after := by
    rw [bindingStart, List.append_assoc] at h
    rcases List.append_eq_append_iff.1 h with ⟨more, hbefore, hmore⟩ | ⟨more, hsplit, hmore⟩
    · exact ⟨more, hbefore, hmore⟩
    · cases more with
      | nil => exact ⟨[], by simpa using hsplit.symm, hmore.symm⟩
      | cons c more =>
        obtain ⟨rfl, -⟩ := List.cons.inj hmore
        exact absurd (hsplit ▸ List.mem_append_right _ List.mem_cons_self) hname
  obtain ⟨more, rfl, hmore⟩ := hmore
  -- the blanks around the equals sign have none beside them
  match more, hmore with
  | [], hmore => simp at hmore
  | [_], hmore => simp at hmore
  | [_, _], hmore =>
    obtain ⟨-, -, rfl⟩ : ' ' = _ ∧ '=' = _ ∧ value = ' ' :: after := by simpa using hmore
    exact absurd rfl hhead
  | [_, _, _], hmore =>
    obtain ⟨-, -, -, rfl⟩ : ' ' = _ ∧ '=' = _ ∧ ' ' = _ ∧ value = ' ' :: ' ' :: after := by simpa using hmore
    exact absurd rfl hhead
  | _ :: _ :: _ :: c :: more, hmore =>
    obtain ⟨rfl, rfl, rfl, rfl⟩ : ' ' = _ ∧ '=' = _ ∧ ' ' = _ ∧ value = c :: more ++ ' ' :: ' ' :: after := by
      simpa using hmore
    exact ⟨c, more, by simp [bindingStart], rfl⟩

/-- Joining the contents of a binding does not touch its name and the sign behind it. -/
theorem exists_joinedContents_eq {contents : List Text} (hname : ' ' ∉ name) (hhead : value.head? ≠ some ' ')
    (h : Text.joinWith " " contents = bindingStart name ++ value) :
    ∃ read, joinedContents contents = bindingStart name ++ read ∧ read.head? ≠ some ' ' := by
  cases value with
  | nil =>
    have hsingle (before after : Text) (hblanks : bindingStart name ++ [] = before ++ ' ' :: ' ' :: after) :
        (bindingStart name).length ≤ before.length := by
      obtain ⟨c, more, -, hvalue⟩ := eq_append_of_blanks hname hhead hblanks
      exact absurd hvalue (by simp)
    obtain ⟨read, hread⟩ := exists_joinedContents_eq_append h hsingle
    have hsub := joinedContents_sublist contents
    rw [h, hread, List.append_sublist_append_left, List.sublist_nil] at hsub
    exact ⟨read, hread, by rw [hsub]; simp⟩
  | cons c rest =>
    rw [List.append_cons] at h
    have hsingle (before after : Text) (hblanks : bindingStart name ++ [c] ++ rest = before ++ ' ' :: ' ' :: after) :
        (bindingStart name ++ [c]).length ≤ before.length := by
      rw [← List.append_cons] at hblanks
      obtain ⟨d, more, hbefore, -⟩ := eq_append_of_blanks hname hhead hblanks
      rw [hbefore, List.length_append, List.length_append, List.length_cons, List.length_cons, List.length_nil]
      omega
    obtain ⟨read, hread⟩ := exists_joinedContents_eq_append h hsingle
    refine ⟨c :: read, ?_, by simpa using hhead⟩
    rw [hread, ← List.append_cons]

/-- A text with no two blanks in a row is never broken right before a blank. -/
theorem breaksBeforeWords_of_single {contents : List Text} (h : ¬ [' ', ' '] <:+: Text.joinWith " " contents) :
    BreaksBeforeWords contents := by
  rintro before rest rfl hne hhead
  apply h
  obtain ⟨others, last, rfl⟩ := (List.eq_nil_or_concat before).resolve_left hne
  cases rest with
  | nil => exact absurd hhead (by simp [Text.joinWith])
  | cons content behind =>
    obtain ⟨after, hafter⟩ := List.head?_eq_some_iff.1 hhead
    rw [joinWith_append_cons, hafter]
    refine ⟨textBefore others ++ last, after, ?_⟩
    simp [textBefore]

theorem meaning_map_plain (s : Text) : meaning (s.map .plain) = s := by
  unfold meaning
  rw [List.flatMap_map]
  exact List.flatMap_singleton' s

/-- What a reader makes of the line of a binding. -/
theorem readBinding?_of_onlyLine? {s read : Text} (hs : onlyLine? s = some ((bindingStart name ++ read).map .plain))
    (hname : ' ' ∉ name ∧ '=' ∉ name) (hhead : read.head? ≠ some ' ') : readBinding? s = some (name, read) := by
  have hbefore : equals ∉ (name ++ [' ']).map Sign.plain := by
    simp [equals, hname.2]
  have hblank : Sign.blank ∉ name.map Sign.plain := by
    simp [Sign.blank, hname.1]
  have hline : (bindingStart name ++ read).map Sign.plain =
      (name ++ [' ']).map .plain ++ equals :: (' ' :: read).map .plain := by
    simp [bindingStart, equals]
  have hmem : equals ∈ (name ++ [' ']).map Sign.plain ++ equals :: (' ' :: read).map .plain :=
    List.mem_append_right _ List.mem_cons_self
  obtain ⟨htake, hdrop⟩ := cut_at_mark hbefore ((' ' :: read).map .plain)
  have hread : (' ' :: read).dropWhile (· = ' ') = read := by
    rw [List.dropWhile_cons_of_pos (by decide)]
    exact (dropWhile_eq_self_iff_head? read).2 hhead
  have hword : ((name ++ [' ']).map Sign.plain).takeWhile (· ≠ .blank) = name.map .plain := by
    rw [List.map_append]
    exact (cut_at_mark hblank []).1
  unfold readBinding?
  rw [hs, hline]
  show (if equals ∈ _ then _ else _) = _
  rw [if_pos hmem, htake, hdrop, hword, dropWhile_map_plain, hread, meaning_map_plain, meaning_map_plain]

theorem not_mem_bindingStart_append {c : Char} (hsign : c ∉ (" = " : Text)) (hname : c ∉ name) (hvalue : c ∉ value) :
    c ∉ bindingStart name ++ value :=
  List.not_mem_append (List.not_mem_append hname hsign) hvalue

/-- A binding is read back but for the blanks that stand behind a place where its line is broken. -/
theorem readBinding?_binding (hname : ' ' ∉ name ∧ '=' ∉ name ∧ '$' ∉ name ∧ '\n' ∉ name)
    (hvalue : '$' ∉ value ∧ '\n' ∉ value) (hhead : value.head? ≠ some ' ') :
    ∃ read, readBinding? (Statement.binding name value).text = some (name, read) ∧
      read.Sublist value ∧ read.filter (· ≠ ' ') = value.filter (· ≠ ' ') ∧
      (read = value ↔ BreaksBeforeWords (contents 0 4 (name ++ " = " ++ value))) ∧
      (¬ [' ', ' '] <:+: value → read = value) := by
  obtain ⟨hblank, hequals, hdollar, hfeed⟩ := hname
  have hjoin := joinWith_contents 0 4 (bindingStart name ++ value)
  obtain ⟨read, hread, hstart⟩ := exists_joinedContents_eq hblank hhead hjoin
  have hline := onlyLine?_layout_plain (not_mem_bindingStart_append (by decide) hdollar hvalue.1)
    (not_mem_bindingStart_append (by decide) hfeed hvalue.2)
  rw [hread] at hline
  have hsub := joinedContents_sublist (contents 0 4 (bindingStart name ++ value))
  rw [hjoin, hread, List.append_sublist_append_left] at hsub
  have hfilter := filter_joinedContents (contents 0 4 (bindingStart name ++ value))
  rw [hjoin, hread, List.filter_append, List.filter_append, List.append_cancel_left_eq] at hfilter
  have hiff := joinedContents_eq_iff (contents 0 4 (bindingStart name ++ value))
  rw [hjoin, hread, List.append_cancel_left_eq] at hiff
  refine ⟨read, readBinding?_of_onlyLine? hline ⟨hblank, hequals⟩ hstart, hsub, hfilter, hiff, ?_⟩
  intro hsingle
  apply hiff.2
  apply breaksBeforeWords_of_single
  rw [hjoin]
  rintro ⟨before, after, hblanks⟩
  rw [List.append_assoc] at hblanks
  obtain ⟨c, more, -, hmore⟩ := eq_append_of_blanks hblank hhead hblanks.symm
  exact hsingle ⟨c :: more, after, by rw [hmore]; simp⟩

/-- Two blanks in a row are read back where the line is broken elsewhere. -/
theorem readBinding?_binding_kept :
    let value : Text := "-DMSG=\"a  b\" -D" ++ List.replicate 100 'X' ++ " -v"
    ('$' ∉ value ∧ '\n' ∉ value) ∧ value.head? ≠ some ' ' ∧
      readBinding? (Statement.binding "ccflags" value).text = some (("ccflags" : Text), value) := by
  intro value
  have hvalue : '$' ∉ value ∧ '\n' ∉ value := by decide +kernel
  have hhead : value.head? ≠ some ' ' := by decide
  have hjoined : joinedContents (contents 0 4 ("ccflags" ++ " = " ++ value)) = "ccflags" ++ " = " ++ value := by
    decide +kernel
  have hbreaks : BreaksBeforeWords (contents 0 4 ("ccflags" ++ " = " ++ value)) := by
    rw [← joinedContents_eq_iff, joinWith_contents]
    exact hjoined
  obtain ⟨read, hread, -, -, hiff, -⟩ := @readBinding?_binding "ccflags" value (by decide) hvalue hhead
  rw [hiff.2 hbreaks] at hread
  exact ⟨hvalue, hhead, hread⟩

/-- One of them is lost where it is broken between them. -/
theorem readBinding?_binding_lost :
    let value : Text := "-D" ++ List.replicate 96 'X' ++ " -DMSG=\"a  b\""
    let read : Text := "-D" ++ List.replicate 96 'X' ++ " -DMSG=\"a b\""
    ('$' ∉ value ∧ '\n' ∉ value) ∧ value.head? ≠ some ' ' ∧
      readBinding? (Statement.binding "ccflags" value).text = some (("ccflags" : Text), read) ∧ read ≠ value := by
  intro value read
  have hread : readBinding? (Statement.binding "ccflags" value).text = some (("ccflags" : Text), read) := by
    decide +kernel
  exact ⟨by decide +kernel, by decide, hread, by decide +kernel⟩

end Binding

end CprojNinja.Ninja
