import CprojNinja.Proofs.GraphReading

/-!
# Paths and variables

When ninja reads a path it also replaces variables, and a dollar that begins neither an escape nor a variable is an
error. The escape of a path leaves a dollar alone unless a blank follows it, because the directory at the start of a
path is a variable. What that costs is a matter of the names behind the directory.

Main statement: the path of a source is read as the file of that name in the source directory if every dollar in the
name stands right before a blank, and otherwise it is not, unless a variable brings the missing dollars along.
-/

namespace CprojNinja

open Ninja

namespace Ninja

/-! ## The reader -/

/-- Whether a character may be part of the name of a variable. -/
def isNameCharacter (c : Char) : Bool := c.isAlphanum || c = '_' || c = '-'

/-- Whether a character may be part of the name of a variable that stands between braces. -/
def isBracedCharacter (c : Char) : Bool := isNameCharacter c || c = '.'

/-- The value of the variable whose name a text starts with, and what follows the name. -/
def readVariable? (isName : Char → Bool) (scope : Text → Text) (s : Text) : Option (Text × Text) :=
  if s.takeWhile isName = [] then none else some (scope (s.takeWhile isName), s.dropWhile isName)

/-- What a dollar stands for together with the start of the text behind it, and the rest of that text. -/
def readDollar? (scope : Text → Text) : Text → Option (Text × Text)
  | [] => none
  | c :: s =>
    if c = '$' ∨ c = ' ' ∨ c = ':' then some ([c], s)
    else if c = '\x7b' then do
      let (value, rest) ← readVariable? isBracedCharacter scope s
      return (value, ← Text.dropStart? "\x7d" rest)
    else readVariable? isNameCharacter scope (c :: s)

/-- Whether a character ends a word where it is not escaped. -/
def endsWord (c : Char) : Bool := c = ' ' || c = ':' || c = '|' || c = '\r' || c = '\n'

theorem length_of_readVariable? {isName : Char → Bool} {scope : Text → Text} {s value rest : Text}
    (h : readVariable? isName scope s = some (value, rest)) : rest.length < s.length := by
  unfold readVariable? at h
  split at h
  · cases h
  · next hname =>
    cases h
    have hpos := List.length_pos_iff.2 hname
    have hlength := congrArg List.length (List.takeWhile_append_dropWhile (p := isName) (l := s))
    rw [List.length_append] at hlength
    omega

theorem length_of_readDollar? {scope : Text → Text} {s value rest : Text}
    (h : readDollar? scope s = some (value, rest)) : rest.length < s.length := by
  cases s with
  | nil => cases h
  | cons c s =>
    rw [readDollar?] at h
    split at h
    · cases h
      exact Nat.lt_succ_self _
    · split at h
      · obtain ⟨⟨name, after⟩, hname, h⟩ := Option.bind_eq_some_iff.1 h
        obtain ⟨left, hleft, h⟩ := Option.bind_eq_some_iff.1 h
        cases h
        have hshort := length_of_readVariable? hname
        rw [Text.dropStart?_eq_some.1 hleft] at hshort
        simp only [List.length_append, List.length_cons] at hshort ⊢
        omega
      · exact length_of_readVariable? h

/-- Reads one word, where `scope` gives the values of the variables; what follows the word is left. -/
def readWord? (scope : Text → Text) : Text → Option (Text × Text)
  | [] => some ([], [])
  | c :: s =>
    if c = '$' then
      match h : readDollar? scope s with
      | none => none
      | some (value, rest) =>
        have : rest.length < s.length + 1 := Nat.lt_succ_of_lt (length_of_readDollar? h)
        (readWord? scope rest).map (Prod.map (value ++ ·) id)
    else if endsWord c then some ([], c :: s)
    else (readWord? scope s).map (Prod.map (c :: ·) id)
termination_by s => s.length

section Reader

variable (scope : Text → Text)

@[simp] theorem readWord?_nil : readWord? scope [] = some ([], []) := by
  rw [readWord?]

theorem readWord?_dollar_eq_bind (s : Text) : readWord? scope ('$' :: s) =
    (readDollar? scope s).bind fun (value, rest) => (readWord? scope rest).map (Prod.map (value ++ ·) id) := by
  rw [readWord?, if_pos rfl]
  split
  · next hnone => simp [hnone]
  · next hsome => simp [hsome]

theorem readWord?_dollar {s value rest : Text} (h : readDollar? scope s = some (value, rest)) :
    readWord? scope ('$' :: s) = (readWord? scope rest).map (Prod.map (value ++ ·) id) := by
  rw [readWord?_dollar_eq_bind, h]
  rfl

theorem readWord?_of_endsWord {c : Char} (h : endsWord c = true) (s : Text) :
    readWord? scope (c :: s) = some ([], c :: s) := by
  have hc : c ≠ '$' := by
    rintro rfl
    exact absurd h (by decide)
  rw [readWord?, if_neg hc, if_pos h]

theorem readWord?_cons {c : Char} (hc : c ≠ '$') (h : endsWord c = false) (s : Text) :
    readWord? scope (c :: s) = (readWord? scope s).map (Prod.map (c :: ·) id) := by
  rw [readWord?, if_neg hc, h]
  rfl

theorem exists_of_map_eq_some {outcome : Option (Text × Text)} {f : Text → Text} {word rest : Text}
    (h : outcome.map (Prod.map f id) = some (word, rest)) : ∃ w, outcome = some (w, rest) ∧ word = f w := by
  obtain ⟨⟨w, rest⟩, houtcome, h⟩ := Option.map_eq_some_iff.1 h
  cases h
  exact ⟨w, houtcome, rfl⟩

end Reader

/-! ## Escaped names -/

/-- Every dollar of a name stands right before a blank. -/
def DollarsBeforeBlanks (name : Text) : Prop :=
  ∀ before after, name = before ++ '$' :: after → ∃ rest, after = ' ' :: rest

/-- No line ends in a name, and no list of implicit dependencies begins in it. -/
def IsUnbroken (name : Text) : Prop := '\r' ∉ name ∧ '\n' ∉ name ∧ '|' ∉ name

instance (name : Text) : Decidable (IsUnbroken name) := inferInstanceAs (Decidable (_ ∧ _))

theorem isUnbroken_cons {c : Char} {name : Text} :
    IsUnbroken (c :: name) ↔ (c ≠ '\r' ∧ c ≠ '\n' ∧ c ≠ '|') ∧ IsUnbroken name := by
  unfold IsUnbroken
  simp only [List.mem_cons, not_or, ne_eq, eq_comm (b := c)]
  tauto

theorem IsUnbroken.suffix {name left : Text} (h : IsUnbroken name) (hleft : left <:+ name) : IsUnbroken left :=
  ⟨fun hmem => h.1 (hleft.subset hmem), fun hmem => h.2.1 (hleft.subset hmem), fun hmem => h.2.2 (hleft.subset hmem)⟩

theorem DollarsBeforeBlanks.tail {c : Char} {name : Text} (h : DollarsBeforeBlanks (c :: name)) :
    DollarsBeforeBlanks name := by
  rintro before after rfl
  exact h (c :: before) after rfl

theorem dollarsBeforeBlanks_nil : DollarsBeforeBlanks [] := by
  intro before after h
  simp at h

theorem dollarsBeforeBlanks_cons {c : Char} (hc : c ≠ '$') {name : Text} :
    DollarsBeforeBlanks (c :: name) ↔ DollarsBeforeBlanks name := by
  refine ⟨DollarsBeforeBlanks.tail, fun h before after hname => ?_⟩
  cases before with
  | nil => exact absurd (List.cons.inj hname).1 hc
  | cons d before => exact h before after (List.cons.inj hname).2

theorem dollarsBeforeBlanks_dollar_blank {name : Text} :
    DollarsBeforeBlanks ('$' :: ' ' :: name) ↔ DollarsBeforeBlanks name := by
  refine ⟨fun h => h.tail.tail, fun h before after hname => ?_⟩
  cases before with
  | nil => exact ⟨name, (List.cons.inj hname).2.symm⟩
  | cons d before =>
    have hrest : DollarsBeforeBlanks (' ' :: name) := (dollarsBeforeBlanks_cons (by decide)).2 h
    exact hrest before after (List.cons.inj hname).2

section Escaped

variable (scope : Text → Text) {name : Text}

/-- A character that is no dollar is read as itself. -/
theorem readWord?_escape_cons {c : Char} (hc : c ≠ '$') (hunbroken : c ≠ '\r' ∧ c ≠ '\n' ∧ c ≠ '|') (name : Text) :
    readWord? scope (escape (c :: name)) = (readWord? scope (escape name)).map (Prod.map (c :: ·) id) := by
  rw [escape_cons hc]
  by_cases hescaped : c = ' ' ∨ c = ':'
  · have hread : readDollar? scope (c :: escape name) = some ([c], escape name) := if_pos (Or.inr hescaped)
    rw [if_pos hescaped]
    exact readWord?_dollar scope hread
  · have hinner : endsWord c = false := by
      obtain ⟨hblank, hcolon⟩ := not_or.1 hescaped
      obtain ⟨hreturn, hfeed, hbar⟩ := hunbroken
      simp [endsWord, hblank, hcolon, hreturn, hfeed, hbar]
    rw [if_neg hescaped]
    exact readWord?_cons scope hc hinner _

/-- A dollar before a blank is doubled, and the blank is escaped. -/
theorem readWord?_escape_dollar_blank (name : Text) : readWord? scope (escape ('$' :: ' ' :: name)) =
    (readWord? scope (escape name)).map (Prod.map (['$', ' '] ++ ·) id) := by
  have hdollar : readDollar? scope ('$' :: '$' :: ' ' :: escape name) = some (['$'], '$' :: ' ' :: escape name) := rfl
  have hblank : readDollar? scope (' ' :: escape name) = some ([' '], escape name) := rfl
  show readWord? scope ('$' :: '$' :: '$' :: ' ' :: escape name) = _
  rw [readWord?_dollar scope hdollar, readWord?_dollar scope hblank, Option.map_map, Prod.map_comp_map]
  rfl

/-- A name whose dollars all stand before blanks is read back, whatever the variables are. -/
theorem readWord?_escape (hunbroken : IsUnbroken name) (h : DollarsBeforeBlanks name) :
    readWord? scope (escape name) = some (name, []) := by
  induction name using escape.induct with
  | case1 => exact readWord?_nil scope
  | case2 name ih =>
    have hname := (isUnbroken_cons.1 (isUnbroken_cons.1 hunbroken).2).2
    rw [readWord?_escape_dollar_blank, ih hname (dollarsBeforeBlanks_dollar_blank.1 h)]
    rfl
  | case3 name ih =>
    rw [readWord?_escape_cons scope (by decide) (by decide), ih (isUnbroken_cons.1 hunbroken).2 h.tail]
    rfl
  | case4 name ih =>
    rw [readWord?_escape_cons scope (by decide) (by decide), ih (isUnbroken_cons.1 hunbroken).2 h.tail]
    rfl
  | case5 c name hother hblank hcolon ih =>
    have hc : c ≠ '$' := by
      rintro rfl
      obtain ⟨rest, hrest⟩ := h [] name rfl
      exact hother rest rfl hrest
    obtain ⟨hc', hname⟩ := isUnbroken_cons.1 hunbroken
    rw [readWord?_escape_cons scope hc hc', ih hname h.tail]
    rfl

end Escaped

/-! ## Names with other dollars -/

theorem escape_dollar {name : Text} (h : name.head? ≠ some ' ') : escape ('$' :: name) = '$' :: escape name := by
  rw [escape]
  · rintro rest - rfl
    exact h rfl
  · decide
  · decide

/-- The escape puts a dollar before a character or leaves it as it is. -/
theorem escape_cons_cases (c : Char) (name : Text) :
    (c = '$' ∨ c = ' ' ∨ c = ':') ∧ (∃ rest, escape (c :: name) = '$' :: rest) ∨
      ¬ (c = '$' ∨ c = ' ' ∨ c = ':') ∧ escape (c :: name) = c :: escape name := by
  by_cases hc : c = '$'
  · subst hc
    refine Or.inl ⟨Or.inl rfl, ?_⟩
    by_cases hblank : name.head? = some ' '
    · obtain ⟨rest, rfl⟩ := List.head?_eq_some_iff.1 hblank
      exact ⟨_, rfl⟩
    · exact ⟨_, escape_dollar hblank⟩
  · rw [escape_cons hc]
    by_cases hescaped : c = ' ' ∨ c = ':'
    · rw [if_pos hescaped]
      exact Or.inl ⟨Or.inr hescaped, _, rfl⟩
    · rw [if_neg hescaped]
      exact Or.inr ⟨not_or.2 ⟨hc, hescaped⟩, rfl⟩

theorem exists_of_escape_eq_cons {c : Char} (hc : c ≠ '$') {name rest : Text} (h : escape name = c :: rest) :
    ∃ left, name = c :: left ∧ rest = escape left := by
  cases name with
  | nil => cases h
  | cons d name =>
    rcases escape_cons_cases d name with ⟨-, start, hstart⟩ | ⟨-, hplain⟩
    · exact absurd (List.cons.inj (h.symm.trans hstart)).1 hc
    · obtain ⟨rfl, rfl⟩ := List.cons.inj (h.symm.trans hplain)
      exact ⟨name, rfl, rfl⟩

section Variables

/-- Characters of the names of variables are not escaped. -/
def IsPlainClass (isName : Char → Bool) : Prop := isName '$' = false ∧ isName ' ' = false ∧ isName ':' = false

variable {isName : Char → Bool} (hclass : IsPlainClass isName)
include hclass

theorem dropWhile_escape (name : Text) : (escape name).dropWhile isName = escape (name.dropWhile isName) := by
  induction name with
  | nil => rfl
  | cons c name ih =>
    rcases escape_cons_cases c name with ⟨hspecial, rest, hescape⟩ | ⟨-, hescape⟩
    · have hc : ¬ isName c = true := by
        obtain ⟨hdollar, hblank, hcolon⟩ := hclass
        rcases hspecial with rfl | rfl | rfl <;> simp [hdollar, hblank, hcolon]
      rw [List.dropWhile_cons_of_neg hc, hescape, List.dropWhile_cons_of_neg (by simp [hclass.1])]
    · by_cases hc : isName c = true
      · rw [hescape, List.dropWhile_cons_of_pos hc, List.dropWhile_cons_of_pos hc, ih]
      · rw [List.dropWhile_cons_of_neg hc, hescape, List.dropWhile_cons_of_neg hc]

theorem readVariable?_escape {scope : Text → Text} {name value rest : Text}
    (h : readVariable? isName scope (escape name) = some (value, rest)) :
    ∃ left, left <:+ name ∧ rest = escape left ∧ ∃ v, value = scope v := by
  unfold readVariable? at h
  rw [dropWhile_escape hclass] at h
  split at h
  · cases h
  · cases h
    exact ⟨name.dropWhile isName, List.dropWhile_suffix _, rfl, _, rfl⟩

end Variables

/-- What becomes of a dollar that stands before no blank: either its word ends too early, or it takes part in a variable
or makes up for another dollar, so that one dollar less is read than there was. -/
theorem readDollar?_escape {scope : Text → Text} (hscope : ∀ v, '$' ∉ scope v) {name value rest : Text}
    (hname : name.head? ≠ some ' ') (h : readDollar? scope (escape name) = some (value, rest)) :
    (∀ word, readWord? scope rest ≠ some (word, [])) ∨
      ∃ left, left <:+ name ∧ rest = escape left ∧ value.count '$' + left.count '$' ≤ name.count '$' := by
  cases name with
  | nil => cases h
  | cons c name =>
    by_cases hc : c = '$'
    · subst hc
      by_cases hblank : name.head? = some ' '
      · -- two dollars before a blank become four, and the blank is left to itself
        obtain ⟨name, rfl⟩ := List.head?_eq_some_iff.1 hblank
        cases h
        have hdollar : readDollar? scope ('$' :: ' ' :: escape name) = some (['$'], ' ' :: escape name) := rfl
        refine Or.inl fun word hword => ?_
        rw [readWord?_dollar scope hdollar, readWord?_of_endsWord scope (by decide)] at hword
        simp at hword
      · rw [escape_dollar hblank] at h
        cases h
        refine Or.inr ⟨name, List.suffix_cons _ _, rfl, ?_⟩
        simp [Nat.add_comm]
    · rw [escape_cons hc] at h
      by_cases hescaped : c = ' ' ∨ c = ':'
      · -- a colon gets a dollar of its own, which is read together with the one before it
        have hcolon : c = ':' := hescaped.resolve_left fun hblank => hname (by rw [hblank]; rfl)
        subst hcolon
        have hdollar : readDollar? scope ('$' :: ':' :: escape name) = some (['$'], ':' :: escape name) := rfl
        cases hdollar.symm.trans h
        refine Or.inl fun word hword => ?_
        rw [readWord?_of_endsWord scope (by decide)] at hword
        simp at hword
      · have hplain : (if c = ' ' ∨ c = ':' then ['$', c] else [c]) ++ escape name = c :: escape name := by
          rw [if_neg hescaped]
          rfl
        obtain ⟨left, hleft, hrest, v, hvalue⟩ : ∃ left, left <:+ c :: name ∧ rest = escape left ∧
            ∃ v, value = scope v := by
          rw [hplain, readDollar?, if_neg (not_or.2 ⟨hc, hescaped⟩)] at h
          split at h
          · obtain ⟨⟨braced, after⟩, hbraced, h⟩ := Option.bind_eq_some_iff.1 h
            obtain ⟨end', hend, h⟩ := Option.bind_eq_some_iff.1 h
            cases h
            obtain ⟨left, hleft, rfl, hvalue⟩ := readVariable?_escape ⟨rfl, rfl, rfl⟩ hbraced
            obtain ⟨left, rfl, rfl⟩ := exists_of_escape_eq_cons (by decide) (Text.dropStart?_eq_some.1 hend)
            exact ⟨left, (List.suffix_cons _ left).trans (hleft.trans (List.suffix_cons c name)), rfl, hvalue⟩
          · rw [← hplain, ← escape_cons hc] at h
            exact readVariable?_escape ⟨rfl, rfl, rfl⟩ h
        refine Or.inr ⟨left, hleft, hrest, ?_⟩
        rw [hvalue, List.count_eq_zero_of_not_mem (hscope v), Nat.zero_add]
        exact hleft.sublist.count_le _

/-- Not more dollars are read than there are, and just as many only if each of them stands before a blank. -/
theorem count_of_readWord?_escape {scope : Text → Text} (hscope : ∀ v, '$' ∉ scope v) {name word : Text}
    (hunbroken : IsUnbroken name) (h : readWord? scope (escape name) = some (word, [])) :
    word.count '$' ≤ name.count '$' ∧ (word.count '$' = name.count '$' → DollarsBeforeBlanks name) := by
  -- a variable may take any part of the name, so the induction is on the length of what is left
  induction hlength : name.length using Nat.strong_induction_on generalizing name word with
  | _ length ih =>
    subst hlength
    cases name with
    | nil =>
      cases (readWord?_nil scope).symm.trans h
      exact ⟨Nat.le_refl _, fun _ => dollarsBeforeBlanks_nil⟩
    | cons c name =>
      obtain ⟨hc, hname⟩ := isUnbroken_cons.1 hunbroken
      by_cases hdollar : c = '$'
      · subst hdollar
        by_cases hblank : name.head? = some ' '
        · obtain ⟨name, rfl⟩ := List.head?_eq_some_iff.1 hblank
          rw [readWord?_escape_dollar_blank] at h
          obtain ⟨word, hword, rfl⟩ := exists_of_map_eq_some h
          have hshorter : name.length < ('$' :: ' ' :: name).length := by
            rw [List.length_cons, List.length_cons]
            omega
          obtain ⟨hle, heq⟩ := ih name.length hshorter (isUnbroken_cons.1 hname).2 hword rfl
          rw [dollarsBeforeBlanks_dollar_blank]
          simp only [List.count_append, List.count_cons] at hle heq ⊢
          exact ⟨by simp; omega, fun hcount => heq (by simp at hcount; omega)⟩
        · have hless : word.count '$' < ('$' :: name).count '$' := by
            rw [escape_dollar hblank, readWord?_dollar_eq_bind] at h
            obtain ⟨⟨value, rest⟩, hread, h⟩ := Option.bind_eq_some_iff.1 h
            obtain ⟨word, hword, rfl⟩ := exists_of_map_eq_some h
            rcases readDollar?_escape hscope hblank hread with hnone | ⟨left, hleft, rfl, hcount⟩
            · exact absurd hword (hnone word)
            · have hle := (ih left.length (Nat.lt_succ_of_le hleft.length_le) (hname.suffix hleft) hword rfl).1
              rw [List.count_append, List.count_cons_self]
              omega
          exact ⟨hless.le, fun heq => absurd heq hless.ne⟩
      · rw [readWord?_escape_cons scope hdollar hc] at h
        obtain ⟨word, hword, rfl⟩ := exists_of_map_eq_some h
        rw [List.count_cons_of_ne hdollar, List.count_cons_of_ne hdollar, dollarsBeforeBlanks_cons hdollar]
        exact ih name.length (Nat.lt_succ_self _) hname hword rfl

/-- A name is read back, in a scope that brings no dollars along, just if each of its dollars stands before a blank. -/
theorem readWord?_escape_iff {scope : Text → Text} (hscope : ∀ v, '$' ∉ scope v) {name : Text}
    (hunbroken : IsUnbroken name) : readWord? scope (escape name) = some (name, []) ↔ DollarsBeforeBlanks name := by
  constructor
  · intro h
    exact (count_of_readWord?_escape hscope hunbroken h).2 rfl
  · exact readWord?_escape scope hunbroken

end Ninja

/-! ## Sources -/

/-- A source is read as its name is, in the source directory. -/
theorem readWord?_sourcePath (scope : Text → Text) (name : Text) : readWord? scope (escape (sourcePath name)) =
    (readWord? scope (escape name)).map (Prod.map (scope "src" ++ "/" ++ ·) id) := by
  have hescape : escape (sourcePath name) = "$src/" ++ escape name := by
    unfold sourcePath
    simp [escape]
  have hvariable : readDollar? scope ("src/" ++ escape name) = some (scope "src", '/' :: escape name) := rfl
  rw [hescape]
  refine (readWord?_dollar scope hvariable).trans ?_
  rw [readWord?_cons scope (by decide) (by decide), Option.map_map, Prod.map_comp_map]
  congr 2
  funext word
  simp

variable {p : Project} {flags : ResolvedFlags} {programs : Executables} {outdir : Text} {f : File}

/-- The edge of a source names the file that the project lists if every dollar in its name stands right before a blank.
With any other dollar in the name no scope whose values hold no dollar makes the path mean that file. -/
theorem readWord?_source_graph (h : p.graph flags programs outdir = .ok f) {file : Path} (hfile : file ∈ p.sources)
    {e : Edge} (he : listedEdge? file = some e) (hunbroken : '\r' ∉ file ∧ '\n' ∉ file ∧ '|' ∉ file) :
    e ∈ f.compileEdges ∧ e.inputs = ["$src/" ++ file] ∧
      (DollarsBeforeBlanks file → ∀ scope : Text → Text,
        readWord? scope (escape ("$src/" ++ file)) = some (scope "src" ++ "/" ++ file, [])) ∧
      (¬ DollarsBeforeBlanks file → ∀ scope : Text → Text, (∀ v, '$' ∉ scope v) →
        readWord? scope (escape ("$src/" ++ file)) ≠ some (scope "src" ++ "/" ++ file, [])) := by
  have hread (scope : Text → Text) : readWord? scope (escape ("$src/" ++ file)) =
      some (scope "src" ++ "/" ++ file, []) ↔ readWord? scope (escape file) = some (file, []) := by
    have hpath := readWord?_sourcePath scope file
    unfold sourcePath at hpath
    rw [hpath]
    constructor
    · intro hword
      obtain ⟨word, hword, heq⟩ := exists_of_map_eq_some hword
      rw [hword, List.append_cancel_left heq]
    · intro hword
      rw [hword]
      rfl
  refine ⟨?_, ?_, fun hdollars scope => ?_, fun hdollars scope hscope hword => ?_⟩
  · rw [compileEdges_graph h]
    exact List.mem_filterMap.2 ⟨file, hfile, he⟩
  · rw [listedEdge?_eq] at he
    obtain ⟨language, -, rfl⟩ := Option.map_eq_some_iff.1 he
    rfl
  · exact (hread scope).2 (readWord?_escape scope hunbroken hdollars)
  · exact hdollars ((readWord?_escape_iff hscope hunbroken).1 ((hread scope).1 hword))

/-- A dollar before a blank, blanks, a colon. -/
theorem readWord?_source_graph_blank :
    let file : Path := "my $ rover: 2.c"
    let p : Project := {
      language := .c, outputKind := .archive, outputName := "x", outputExtension := ".a", toolchain := ⟨[], [], []⟩
      references := [], sources := [file], configurations := [] }
    ∃ f, ∃ e ∈ f.compileEdges, p.graph ⟨[], none, []⟩ ⟨[], [], [], []⟩ "Debug" = .ok f ∧
      e.inputs = ["$src/" ++ file] ∧ DollarsBeforeBlanks file ∧ ∀ scope : Text → Text,
        readWord? scope (escape ("$src/" ++ file)) = some (scope "src" ++ "/" ++ file, []) := by
  intro file p
  have hp : Harmless p.language p.sources := eachAfter_cons.2 ⟨by decide, eachAfter_nil⟩
  have h : p.graph ⟨[], none, []⟩ ⟨[], [], [], []⟩ "Debug" = .ok _ := graph_eq_ok_iff.2 ⟨hp, rfl⟩
  have hdollars : DollarsBeforeBlanks file := by
    show DollarsBeforeBlanks ['m', 'y', ' ', '$', ' ', 'r', 'o', 'v', 'e', 'r', ':', ' ', '2', '.', 'c']
    simp [dollarsBeforeBlanks_cons, dollarsBeforeBlanks_dollar_blank, dollarsBeforeBlanks_nil]
  obtain ⟨he, hinputs, hread, -⟩ := readWord?_source_graph h (show file ∈ p.sources by decide) rfl (by decide)
  exact ⟨_, _, he, h, hinputs, hdollars, hread hdollars⟩

/-- A dollar before a letter: part of the name is taken for that of a variable, whose value stands in the path. -/
theorem readWord?_source_graph_variable :
    let file : Path := "pay$load.c"
    let p : Project := {
      language := .c, outputKind := .archive, outputName := "x", outputExtension := ".a", toolchain := ⟨[], [], []⟩
      references := [], sources := [file], configurations := [] }
    ∃ f, ∃ e ∈ f.compileEdges, p.graph ⟨[], none, []⟩ ⟨[], [], [], []⟩ "Debug" = .ok f ∧
      e.inputs = ["$src/" ++ file] ∧
      (∀ scope : Text → Text,
        readWord? scope (escape ("$src/" ++ file)) = some (scope "src" ++ "/pay" ++ scope "load" ++ ".c", [])) ∧
      ∃ scope : Text → Text, readWord? scope (escape ("$src/" ++ file)) ≠ some (scope "src" ++ "/" ++ file, []) := by
  intro file p
  have hp : Harmless p.language p.sources := eachAfter_cons.2 ⟨by decide, eachAfter_nil⟩
  have h : p.graph ⟨[], none, []⟩ ⟨[], [], [], []⟩ "Debug" = .ok _ := graph_eq_ok_iff.2 ⟨hp, rfl⟩
  have hread (scope : Text → Text) : readWord? scope (escape ("$src/" ++ file)) =
      some (scope "src" ++ "/pay" ++ scope "load" ++ ".c", []) := by
    have hvariable : readDollar? scope ['l', 'o', 'a', 'd', '.', 'c'] = some (scope "load", ['.', 'c']) := rfl
    have hname : escape file = ['p', 'a', 'y', '$', 'l', 'o', 'a', 'd', '.', 'c'] := rfl
    have hword : readWord? scope (escape file) = some ("pay" ++ scope "load" ++ ".c", []) := by
      rw [hname]
      simp [readWord?_cons, readWord?_dollar scope hvariable, endsWord]
    refine (readWord?_sourcePath scope file).trans ?_
    rw [hword]
    simp
  refine ⟨_, compileEdge .c file, ?_, h, rfl, hread, fun _ => [], ?_⟩
  · rw [compileEdges_graph h]
    decide
  · rw [hread]
    decide

end CprojNinja
