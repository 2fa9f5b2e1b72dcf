import CprojNinja.Text.Number

/-!
# Dates

A date, a time of day, or a date with a time and perhaps the offset of a time zone. The normal form has a capital `T`
between date and time and a capital `Z` for no offset, at most nine places of a second and none that is a final zero.
-/

namespace CprojNinja.Toml

/-- The number of days of a month. -/
def daysOfMonth (year month : Nat) : Nat :=
  if month = 2 then if year % 4 = 0 ∧ (year % 100 ≠ 0 ∨ year % 400 = 0) then 29 else 28
  else if month ∈ [4, 6, 9, 11] then 30 else 31

/-- Reads a calendar day. -/
def readDay? : Text → Option (Text × Text)
  | a :: b :: c :: d :: '-' :: e :: f :: '-' :: g :: h :: s => do
    let year ← Text.number? 10 [a, b, c, d]
    let month ← Text.number? 10 [e, f]
    let day ← Text.number? 10 [g, h]
    if 1 ≤ month ∧ month ≤ 12 ∧ 1 ≤ day ∧ day ≤ daysOfMonth year month then
      some ([a, b, c, d, '-', e, f, '-', g, h], s)
    else none
  | _ => none

/-- Reads an hour and a minute. -/
def readMinute? : Text → Option (Text × Text)
  | a :: b :: ':' :: c :: d :: s => do
    let hour ← Text.number? 10 [a, b]
    let minute ← Text.number? 10 [c, d]
    if hour ≤ 23 ∧ minute ≤ 59 then some ([a, b, ':', c, d], s) else none
  | _ => none

/-- Reads the fraction of a second, if there is one. -/
def readFraction : Text → Text × Text
  | '.' :: c :: s =>
    if c.isDigit then
      let digits := Text.trimEnd (· = '0') (((c :: s).takeWhile Char.isDigit).take 9)
      (if digits.isEmpty then [] else '.' :: digits, (c :: s).dropWhile Char.isDigit)
    else ([], '.' :: c :: s)
  | s => ([], s)

/-- Reads a time of day. A minute may have a leap second. -/
def readTime? (s : Text) : Option (Text × Text) := do
  let (minute, rest) ← readMinute? s
  match rest with
  | ':' :: a :: b :: rest => do
    let second ← Text.number? 10 [a, b]
    if second ≤ 60 then
      let (fraction, rest) := readFraction rest
      some (minute ++ [':', a, b] ++ fraction, rest)
    else none
  | _ => none

/-- Reads the offset of a time zone. -/
def readOffset? : Text → Option (Text × Text)
  | 'Z' :: s | 'z' :: s => some (['Z'], s)
  | '+' :: s => (readMinute? s).map fun (offset, rest) => ('+' :: offset, rest)
  | '-' :: s =>
    (readMinute? s).map fun (offset, rest) => ((if offset = "00:00" then '+' else '-') :: offset, rest)
  | _ => none

/-- Reads a time after a day, if there is one. -/
def readTimeOfDay? : Text → Option (Text × Text)
  | c :: s => do
    if c = 'T' ∨ c = 't' ∨ c = ' ' then
      let (time, rest) ← readTime? s
      let (offset, rest) := (readOffset? rest).getD ([], rest)
      some ('T' :: time ++ offset, rest)
    else none
  | [] => none

/-- Reads a date, a time or both. -/
def readDate? (s : Text) : Option (Text × Text) :=
  match readDay? s with
  | some (day, rest) =>
    match readTimeOfDay? rest with
    | some (time, rest) => some (day ++ time, rest)
    | none => some (day, rest)
  | none => readTime? s

/-! ## Readers move forward -/

theorem length_readDay? {s day rest : Text} (h : readDay? s = some (day, rest)) : rest.length < s.length := by
  unfold readDay? at h
  split at h
  · simp only [Option.bind_eq_bind, Option.bind_eq_some_iff] at h
    obtain ⟨_, -, _, -, _, -, h⟩ := h
    split at h
    · cases h; simp; omega
    · cases h
  · cases h

theorem length_readMinute? {s minute rest : Text} (h : readMinute? s = some (minute, rest)) :
    rest.length < s.length := by
  unfold readMinute? at h
  split at h
  · simp only [Option.bind_eq_bind, Option.bind_eq_some_iff] at h
    obtain ⟨_, -, _, -, h⟩ := h
    split at h
    · cases h; simp; omega
    · cases h
  · cases h

theorem length_readFraction (s : Text) : (readFraction s).2.length ≤ s.length := by
  unfold readFraction
  split
  · next c s =>
    split
    · have := (List.dropWhile_sublist Char.isDigit (l := c :: s)).length_le
      simp only [List.length_cons] at this ⊢; omega
    · simp
  · simp

theorem length_readTime? {s time rest : Text} (h : readTime? s = some (time, rest)) : rest.length < s.length := by
  unfold readTime? at h
  simp only [Option.bind_eq_bind, Option.bind_eq_some_iff] at h
  obtain ⟨⟨minute, after⟩, hm, h⟩ := h
  have forward := length_readMinute? hm
  split at h
  · next a b last after_eq =>
    obtain ⟨_, -, h⟩ := Option.bind_eq_some_iff.1 h
    split at h
    · have := length_readFraction last
      cases h
      rw [show after = ':' :: a :: b :: last from after_eq] at forward
      simp only [List.length_cons] at forward
      omega
    · cases h
  · cases h

theorem length_readOffset? {s offset rest : Text} (h : readOffset? s = some (offset, rest)) :
    rest.length < s.length := by
  unfold readOffset? at h
  split at h
  · cases h; simp
  · cases h; simp
  · obtain ⟨⟨_, _⟩, hm, he⟩ := Option.map_eq_some_iff.1 h
    cases he
    exact Nat.lt_succ_of_lt (length_readMinute? hm)
  · obtain ⟨⟨_, _⟩, hm, he⟩ := Option.map_eq_some_iff.1 h
    cases he
    exact Nat.lt_succ_of_lt (length_readMinute? hm)
  · cases h

theorem length_readTimeOfDay? {s time rest : Text} (h : readTimeOfDay? s = some (time, rest)) :
    rest.length < s.length := by
  unfold readTimeOfDay? at h
  split at h
  · next c s =>
    split at h
    · simp only [Option.bind_eq_bind, Option.bind_eq_some_iff] at h
      obtain ⟨⟨_, after⟩, ht, h⟩ := h
      have := length_readTime? ht
      cases ho : readOffset? after with
      | none =>
        rw [ho] at h
        cases h
        simp only [Option.getD_none, List.length_cons]
        omega
      | some r =>
        have := length_readOffset? (show readOffset? after = some (r.1, r.2) from ho)
        rw [ho] at h
        cases h
        rw [Option.getD_some, List.length_cons]
        omega
    · cases h
  · cases h

theorem length_readDate? {s date rest : Text} (h : readDate? s = some (date, rest)) : rest.length < s.length := by
  unfold readDate? at h
  split at h
  · next day after hd =>
    have := length_readDay? hd
    split at h
    · next time after' ht => have := length_readTimeOfDay? ht; cases h; omega
    · cases h; omega
  · exact length_readTime? h

end CprojNinja.Toml
