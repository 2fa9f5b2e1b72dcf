import CprojNinja.Proofs.Cuts
import CprojNinja.Proofs.LogicalLines
import CprojNinja.Proofs.Slices

/-!
# Layout of bytes

The place for a cut is searched in the bytes of a text: backwards from a bound and, if there is none, forwards from it,
where the dollars before each blank are counted anew. A blank and a dollar are one byte each and no byte of any other
character, so the bytes have the same places as the characters, each at the start of a character. Hence all slices
exist, and the layout is the one that is stated on characters.
-/

namespace CprojNinja

namespace Text

/-- The bytes of a text. -/
def bytes (s : Text) : List UInt8 := s.flatMap String.utf8EncodeChar

@[simp] theorem bytes_cons (c : Char) (s : Text) : bytes (c :: s) = String.utf8EncodeChar c ++ bytes s :=
  List.flatMap_cons

@[simp] theorem bytes_append (s t : Text) : bytes (s ++ t) = bytes s ++ bytes t := List.flatMap_append

theorem length_bytes (s : Text) : (bytes s).length = byteWidth s := by
  induction s with
  | nil => rfl
  | cons c s ih => rw [bytes_cons, List.length_append, String.length_utf8EncodeChar, ih, byteWidth_cons]

/-- All bytes of a character that takes several of them are at least 128. -/
theorem le_toNat_of_mem_utf8EncodeChar {c : Char} {b : UInt8} (hc : 127 < c.val.toNat)
    (hb : b ∈ String.utf8EncodeChar c) : 128 ≤ b.toNat := by
  have hbyte {n : Nat} (hn : 128 ≤ n ∧ n < 2 ^ 8) : 128 ≤ (UInt8.ofNat n).toNat := by
    rw [UInt8.toNat_ofNat', Nat.mod_eq_of_lt hn.2]
    exact hn.1
  unfold String.utf8EncodeChar at hb
  dsimp only at hb
  rw [if_neg (Nat.not_le.2 hc)] at hb
  split at hb
  · rcases List.mem_pair.1 hb with rfl | rfl <;> exact hbyte (by omega)
  · split at hb
    · simp only [List.mem_cons, List.not_mem_nil, or_false] at hb
      rcases hb with rfl | rfl | rfl <;> exact hbyte (by omega)
    · simp only [List.mem_cons, List.not_mem_nil, or_false] at hb
      rcases hb with rfl | rfl | rfl | rfl <;> exact hbyte (by omega)

/-- A byte below 128 is a character of its own. -/
theorem toNat_eq_of_mem_utf8EncodeChar {c : Char} {b : UInt8} (hb : b ∈ String.utf8EncodeChar c)
    (hsmall : b.toNat < 128) : c.toNat = b.toNat ∧ c.utf8Size = 1 := by
  have hc : c.val.toNat ≤ 127 := by
    by_contra hwide
    exact absurd hsmall (Nat.not_lt.2 (le_toNat_of_mem_utf8EncodeChar (Nat.not_le.1 hwide) hb))
  have hsize : c.utf8Size = 1 := Char.utf8Size_eq_one_iff.2 (UInt32.le_iff_toNat_le.2 hc)
  rw [String.utf8EncodeChar_eq_singleton hsize, List.mem_singleton] at hb
  refine ⟨?_, hsize⟩
  rw [hb, UInt32.toNat_toUInt8, Nat.mod_eq_of_lt (Nat.lt_of_le_of_lt hc (by decide))]
  rfl

/-- A byte below 128 stands at the start of the character that it is. -/
theorem exists_of_getElem?_bytes {s : Text} {i : Nat} {b : UInt8} (hb : (bytes s)[i]? = some b)
    (hsmall : b.toNat < 128) :
    ∃ before c after, s = before ++ c :: after ∧ c.toNat = b.toNat ∧ byteWidth before = i := by
  induction s generalizing i with
  | nil => cases hb
  | cons c s ih =>
    rw [bytes_cons] at hb
    rcases Nat.lt_or_ge i (String.utf8EncodeChar c).length with hi | hi
    · rw [List.getElem?_append_left hi] at hb
      obtain ⟨hc, hsize⟩ := toNat_eq_of_mem_utf8EncodeChar (List.mem_of_getElem? hb) hsmall
      rw [String.length_utf8EncodeChar, hsize, Nat.lt_one_iff] at hi
      exact ⟨[], c, s, rfl, hc, hi.symm⟩
    · rw [List.getElem?_append_right hi] at hb
      obtain ⟨before, d, after, rfl, hd, hbefore⟩ := ih hb
      rw [String.length_utf8EncodeChar] at hi hbefore
      refine ⟨c :: before, d, after, rfl, hd, ?_⟩
      rw [byteWidth_cons, hbefore, Nat.add_sub_cancel' hi]

end Text

namespace Ninja

open Text (byteWidth bytes from? upTo?)

/-- The byte of a blank. -/
def blankByte : UInt8 := 32

/-- The byte of a dollar. -/
def dollarByte : UInt8 := 36

/-- The number of dollars at the end of some bytes. -/
def dollarBytesAtEnd (bs : List UInt8) : Nat := (bs.reverse.takeWhile (· = dollarByte)).length

theorem dollarBytesAtEnd_bytes (s : Text) : dollarBytesAtEnd (bytes s) = dollarsAtEnd s := by
  induction s using List.reverseRecOn with
  | nil => rfl
  | append_singleton s c ih =>
    have hbytes : bytes [c] = String.utf8EncodeChar c := List.append_nil _
    rw [dollarsAtEnd_concat, Text.bytes_append, hbytes, dollarBytesAtEnd, List.reverse_append]
    by_cases hc : c = '$'
    · have hdollar : (String.utf8EncodeChar '$').reverse = [dollarByte] := rfl
      rw [hc, if_pos rfl, hdollar, List.singleton_append, List.takeWhile_cons_of_pos rfl, List.length_cons, ← ih,
        dollarBytesAtEnd]
    · have hother : ∀ b ∈ (String.utf8EncodeChar c).reverse, b ≠ dollarByte := fun b hb hdollar => by
        rw [hdollar, List.mem_reverse] at hb
        exact hc (Char.toNat_inj.1 (Text.toNat_eq_of_mem_utf8EncodeChar hb (by decide)).1)
      cases hlast : (String.utf8EncodeChar c).reverse with
      | nil =>
        have hsize := String.length_utf8EncodeChar c
        rw [List.reverse_eq_nil_iff.1 hlast] at hsize
        exact absurd hsize (Nat.ne_of_lt c.utf8Size_pos)
      | cons b bs =>
        rw [hlast] at hother
        rw [if_neg hc, List.cons_append, List.takeWhile_cons_of_neg (by simpa using hother b List.mem_cons_self)]
        rfl

/-! ## Places for a cut -/

/-- Whether the byte at a position is a blank behind an even number of dollars. -/
def BreaksAt (bs : List UInt8) (i : Nat) : Prop :=
  bs[i]? = some blankByte ∧ dollarBytesAtEnd (bs.take i) % 2 = 0

theorem take_bytes_append (before after : Text) : (bytes (before ++ after)).take (byteWidth before) = bytes before := by
  rw [Text.bytes_append, ← Text.length_bytes, List.take_left]

/-- The bytes have the places for a cut that the characters have. -/
theorem breaksAt_bytes_iff {s : Text} {i : Nat} : BreaksAt (bytes s) i ↔ CutsAt false s i := by
  have hwhole (before : Text) : dollarBytesAtEnd (bytes before) % 2 = 0 ↔ before.foldl oddDollars false = false := by
    rw [dollarBytesAtEnd_bytes, ← Nat.even_iff]
    exact isWhole_iff_even.symm
  constructor
  · rintro ⟨hblank, heven⟩
    obtain ⟨before, c, after, rfl, hc, rfl⟩ := Text.exists_of_getElem?_bytes hblank (by decide)
    obtain rfl : c = ' ' := Char.toNat_inj.1 hc
    rw [take_bytes_append, hwhole] at heven
    exact ⟨before, after, rfl, heven, rfl⟩
  · rintro ⟨before, after, rfl, heven, rfl⟩
    refine ⟨?_, ?_⟩
    · rw [Text.bytes_append, ← Text.length_bytes, List.getElem?_append_right (Nat.le_refl _), Nat.sub_self]
      rfl
    · rwa [take_bytes_append, hwhole]

/-! ## The searches -/

/-- The number of dollars right before a position. -/
def dollarsBefore? (bs : List UInt8) (i : Nat) : Option Nat :=
  if i ≤ bs.length then some (dollarBytesAtEnd (bs.take i)) else none

/-- The last position of a byte. -/
def lastPosition? (b : UInt8) : List UInt8 → Option Nat
  | [] => none
  | a :: bs =>
    match lastPosition? b bs with
    | some i => some (i + 1)
    | none => if a = b then some 0 else none

theorem isLastBelow_lastPosition? (b : UInt8) (bs : List UInt8) :
    IsLastBelow (fun i => bs[i]? = some b) bs.length (lastPosition? b bs) := by
  induction bs with
  | nil => exact fun j hj => absurd hj (by simp)
  | cons a bs ih =>
    unfold lastPosition?
    cases hrest : lastPosition? b bs with
    | some i =>
      rw [hrest] at ih
      obtain ⟨hbound, hplace, hlast⟩ := ih
      refine ⟨Nat.succ_lt_succ hbound, hplace, fun j hj hjbound => ?_⟩
      cases j with
      | zero => exact Nat.zero_le _
      | succ j => exact Nat.succ_le_succ (hlast j hj (Nat.lt_of_succ_lt_succ hjbound))
    | none =>
      rw [hrest] at ih
      by_cases hab : a = b
      · rw [if_pos hab]
        refine ⟨Nat.succ_pos _, congrArg some hab, fun j hj hjbound => ?_⟩
        cases j with
        | zero => exact Nat.le_refl 0
        | succ j => exact absurd (Nat.lt_of_succ_lt_succ hjbound) (Nat.not_lt.2 (ih j hj))
      · rw [if_neg hab]
        intro j hj
        cases j with
        | zero => exact absurd (Option.some.inj hj) hab
        | succ j => exact Nat.succ_le_succ (ih j hj)

theorem isLastBelow_lastPosition?_take (b : UInt8) {bs : List UInt8} {limit : Nat} (hlimit : limit ≤ bs.length) :
    IsLastBelow (fun i => bs[i]? = some b) limit (lastPosition? b (bs.take limit)) := by
  have h := isLastBelow_lastPosition? b (bs.take limit)
  have htake {j : Nat} (hj : bs[j]? = some b) (hjlimit : j < limit) : (bs.take limit)[j]? = some b := by
    rwa [List.getElem?_take_of_lt hjlimit]
  rw [List.length_take_of_le hlimit] at h
  cases hposition : lastPosition? b (bs.take limit) with
  | none =>
    rw [hposition] at h
    exact fun j hj => Nat.not_lt.1 fun hjlimit => absurd hjlimit (Nat.not_lt.2 (h j (htake hj hjlimit)))
  | some i =>
    rw [hposition] at h
    obtain ⟨hi, hplace, hlast⟩ := h
    rw [List.getElem?_take_of_lt hi] at hplace
    exact ⟨hi, hplace, fun j hj hjlimit => hlast j (htake hj hjlimit) hjlimit⟩

theorem isFirstFrom_findIdx? (b : UInt8) (bs : List UInt8) (start : Nat) :
    IsFirstFrom (fun i => bs[i]? = some b) start (((bs.drop start).findIdx? (· = b)).map (start + ·)) := by
  have hdrop {j : Nat} (hj : bs[j]? = some b) (hle : start ≤ j) : (bs.drop start)[j - start]? = some b := by
    rwa [List.getElem?_drop, Nat.add_sub_cancel' hle]
  cases hposition : (bs.drop start).findIdx? (· = b) with
  | none =>
    refine fun j hj => Nat.not_le.1 fun hle => ?_
    have hmem := List.mem_of_getElem? (hdrop hj hle)
    simpa using List.findIdx?_eq_none_iff.1 hposition b hmem
  | some i =>
    obtain ⟨hi, hplace, hfirst⟩ := List.findIdx?_eq_some_iff_getElem.1 hposition
    refine ⟨Nat.le_add_right _ _, ?_, fun j hj hle => ?_⟩
    · show bs[start + i]? = some b
      rw [← List.getElem?_drop, List.getElem?_eq_getElem hi, of_decide_eq_true hplace]
    · by_contra hlt
      obtain ⟨hj', heq⟩ := List.getElem?_eq_some_iff.1 (hdrop hj hle)
      exact hfirst (j - start) (Nat.sub_lt_left_of_lt_add hle (Nat.not_le.1 hlt)) (decide_eq_true heq)

/-- The last place for a cut below a limit, which must not be behind the bytes. -/
def lastBreak? (bs : List UInt8) (limit : Nat) : Option (Option Nat) :=
  if limit ≤ bs.length then
    match _h : lastPosition? blankByte (bs.take limit) with
    | none => some none
    | some i => do
      let dollars ← dollarsBefore? bs i
      if dollars % 2 = 0 then return some i else lastBreak? bs i
  else none
termination_by limit
decreasing_by
  have hposition := isLastBelow_lastPosition? blankByte (bs.take limit)
  rw [_h] at hposition
  exact Nat.lt_of_lt_of_le hposition.1 (List.length_take_le _ _)

/-- The first place for a cut from a position on. -/
def firstBreak? (bs : List UInt8) (start : Nat) : Option (Option Nat) :=
  match _h : (bs.drop start).findIdx? (· = blankByte) with
  | none => some none
  | some i => do
    let dollars ← dollarsBefore? bs (start + i)
    if dollars % 2 = 0 then return some (start + i) else firstBreak? bs (start + i + 1)
termination_by bs.length - start
decreasing_by
  obtain ⟨hposition, -⟩ := List.findIdx?_eq_some_iff_getElem.1 _h
  rw [List.length_drop] at hposition
  omega

theorem dollarsBefore?_of_getElem? {bs : List UInt8} {i : Nat} {b : UInt8} (h : bs[i]? = some b) :
    dollarsBefore? bs i = some (dollarBytesAtEnd (bs.take i)) := by
  obtain ⟨hi, -⟩ := List.getElem?_eq_some_iff.1 h
  exact if_pos (Nat.le_of_lt hi)

/-- The search backwards goes through and finds the last place. -/
theorem exists_lastBreak?_eq {bs : List UInt8} {limit : Nat} (hlimit : limit ≤ bs.length) :
    ∃ r, lastBreak? bs limit = some r ∧ IsLastBelow (BreaksAt bs) limit r := by
  induction limit using Nat.strong_induction_on with
  | _ limit ih =>
    have hposition := isLastBelow_lastPosition?_take blankByte hlimit
    unfold lastBreak?
    rw [if_pos hlimit]
    split
    · next hnone =>
      rw [hnone] at hposition
      exact ⟨none, rfl, fun j hj => hposition j hj.1⟩
    · next i hsome =>
      rw [hsome] at hposition
      obtain ⟨hi, hblank, hlast⟩ := hposition
      rw [dollarsBefore?_of_getElem? hblank, Option.bind_eq_bind, Option.bind_some]
      have hlater : ∀ j, BreaksAt bs j → j < limit → j ≤ i := fun j hj => hlast j hj.1
      by_cases heven : dollarBytesAtEnd (bs.take i) % 2 = 0
      · exact ⟨some i, if_pos heven, hi, ⟨hblank, heven⟩, hlater⟩
      · -- an escaped blank is no place, and there is none between it and the limit
        obtain ⟨r, hr, hbelow⟩ := ih i hi (Nat.le_trans (Nat.le_of_lt hi) hlimit)
        refine ⟨r, (if_neg heven).trans hr, hbelow.mono (Nat.le_of_lt hi) fun j hj hij => ?_⟩
        refine Nat.not_lt.1 fun hjlimit => heven ?_
        rw [Nat.le_antisymm hij (hlater j hj hjlimit)]
        exact hj.2

/-- The search forwards goes through and finds the first place. -/
theorem exists_firstBreak?_eq (bs : List UInt8) (start : Nat) :
    ∃ r, firstBreak? bs start = some r ∧ IsFirstFrom (BreaksAt bs) start r := by
  fun_induction firstBreak? bs start with
  | case1 start hnone =>
    have hposition := isFirstFrom_findIdx? blankByte bs start
    rw [hnone] at hposition
    exact ⟨none, rfl, fun j hj => hposition j hj.1⟩
  | case2 start i hsome ih =>
    have hposition := isFirstFrom_findIdx? blankByte bs start
    rw [hsome] at hposition
    obtain ⟨hi, hblank, hfirst⟩ := hposition
    rw [dollarsBefore?_of_getElem? hblank, Option.bind_eq_bind, Option.bind_some]
    have hbefore : ∀ j, BreaksAt bs j → start ≤ j → start + i ≤ j := fun j hj => hfirst j hj.1
    by_cases heven : dollarBytesAtEnd (bs.take (start + i)) % 2 = 0
    · exact ⟨some (start + i), if_pos heven, hi, ⟨hblank, heven⟩, hbefore⟩
    · obtain ⟨r, hr, hfrom⟩ := ih
      refine ⟨r, (if_neg heven).trans hr, hfrom.mono (Nat.le_succ_of_le hi) fun j hj hjlater => ?_⟩
      refine Nat.not_le.1 fun hle => heven ?_
      rw [Nat.le_antisymm (hbefore j hj hle) (Nat.le_of_lt_succ hjlater)]
      exact hj.2

/-- The best place for a cut. -/
def findBreak? (bs : List UInt8) (available : Nat) : Option (Option Nat) := do
  match ← lastBreak? bs (min available bs.length) with
  | some i => return some i
  | none => firstBreak? bs (max available 1)

/-- Whatever the bound, the search goes through, and what it finds is a place for a cut. -/
theorem exists_findBreak?_eq (s : Text) (available : Nat) :
    ∃ r, findBreak? (bytes s) available = some r ∧ ∀ i, r = some i → CutsAt false s i := by
  obtain ⟨last, hlast, hbelow⟩ := exists_lastBreak?_eq (Nat.min_le_right available (bytes s).length)
  obtain ⟨first, hfirst, hfrom⟩ := exists_firstBreak?_eq (bytes s) (max available 1)
  unfold findBreak?
  rw [hlast, hfirst]
  cases last with
  | some i =>
    refine ⟨some i, rfl, fun j hj => ?_⟩
    cases hj
    exact breaksAt_bytes_iff.1 hbelow.2.1
  | none =>
    refine ⟨first, rfl, fun j hj => ?_⟩
    rw [hj] at hfrom
    exact breaksAt_bytes_iff.1 hfrom.2.1

/-- The bytes are cut where the characters are. -/
theorem findBreak?_bytes (s : Text) {available : Nat} (havailable : 1 ≤ available) :
    findBreak? (bytes s) available = some ((cut? available s).map fun (before, _) => byteWidth before) := by
  have hplaces : BreaksAt (bytes s) = CutsAt false s := funext fun i => propext breaksAt_bytes_iff
  obtain ⟨last, hlast, hbelow⟩ := exists_lastBreak?_eq (Nat.min_le_right available (bytes s).length)
  obtain ⟨first, hfirst, hfrom⟩ := exists_firstBreak?_eq (bytes s) (max available 1)
  -- the bytes are searched up to their end at most, but behind the end there is no place either
  have hbound : ∀ j, CutsAt false s j → min available (bytes s).length ≤ j → available ≤ j := fun j hj hle => by
    obtain ⟨hj, -⟩ := List.getElem?_eq_some_iff.1 (breaksAt_bytes_iff.2 hj).1
    omega
  rw [hplaces] at hbelow hfrom
  rw [Nat.max_eq_left havailable] at hfirst hfrom
  have hlast' := (hbelow.mono (Nat.min_le_left _ _) hbound).unique (isLastBelow_lastCut? available false s)
  have hfirst' := hfrom.unique (isFirstFrom_firstCut? available false s)
  unfold findBreak? cut?
  rw [Nat.max_eq_left havailable, hlast, hfirst, hlast', hfirst']
  cases lastCut? available false s <;> rfl

/-! ## Lines -/

/-- `contents` by positions in the bytes. -/
def contentsAt? (lead nextLead : Nat) (s : Text) : Option (List Text) :=
  if lead + byteWidth s ≤ lineWidth then some [s]
  else do
    match ← findBreak? (bytes s) (lineWidth - (lead + continuation.length)) with
    | none => return [s]
    | some i =>
      let before ← upTo? i s
      match _h : from? (i + 1) s with
      | none => none
      | some after => return before :: (← contentsAt? nextLead nextLead after)
termination_by s.length
decreasing_by exact Text.length_of_from? _h (Nat.succ_pos i)

/-- A place for a cut lies between two slices. -/
theorem contentsAt?_of_cutsAt {lead nextLead : Nat} {s before after : Text} (hwide : ¬ lead + byteWidth s ≤ lineWidth)
    (hs : s = before ++ ' ' :: after)
    (hbreak : findBreak? (bytes s) (lineWidth - (lead + continuation.length)) = some (some (byteWidth before))) :
    contentsAt? lead nextLead s = (contentsAt? nextLead nextLead after).map (before :: ·) := by
  have hbefore : upTo? (byteWidth before) s = some before := hs ▸ Text.upTo?_append before _
  have hafter : from? (byteWidth before + 1) s = some after := hs ▸ Text.from?_append_cons before after rfl
  rw [contentsAt?, if_neg hwide, hbreak]
  simp only [Option.bind_eq_bind, Option.bind_some, hbefore]
  split
  · next hnone =>
    rw [hafter] at hnone
    cases hnone
  · next hsome =>
    rw [hafter] at hsome
    cases hsome
    cases contentsAt? nextLead nextLead after <;> rfl

/-- Whatever the indentation, all slices exist. -/
theorem exists_contentsAt?_eq (lead nextLead : Nat) (s : Text) :
    ∃ lines, contentsAt? lead nextLead s = some lines := by
  induction hlength : s.length using Nat.strong_induction_on generalizing lead s with
  | _ n ih =>
    by_cases hfits : lead + byteWidth s ≤ lineWidth
    · rw [contentsAt?, if_pos hfits]
      exact ⟨_, rfl⟩
    · obtain ⟨r, hr, hplace⟩ := exists_findBreak?_eq s (lineWidth - (lead + continuation.length))
      cases r with
      | none =>
        rw [contentsAt?, if_neg hfits, hr]
        exact ⟨_, rfl⟩
      | some i =>
        obtain ⟨before, after, hs, -, rfl⟩ := hplace i rfl
        have hshorter : after.length < n := by
          rw [← hlength, hs, List.length_append, List.length_cons]
          omega
        obtain ⟨lines, hlines⟩ := ih after.length hshorter nextLead after rfl
        rw [contentsAt?_of_cutsAt hfits hs hr, hlines]
        exact ⟨_, rfl⟩

/-- With indentation that leaves room on a line, the contents are those of the lines. -/
theorem contentsAt?_eq {lead nextLead : Nat} (hlead : lead + continuation.length < lineWidth)
    (hnextLead : nextLead + continuation.length < lineWidth) (s : Text) :
    contentsAt? lead nextLead s = some (contents lead nextLead s) := by
  have hbreak {lead : Nat} (hlead : lead + continuation.length < lineWidth) (s : Text) :
      findBreak? (bytes s) (lineWidth - (lead + continuation.length)) =
        some ((cut? (lineWidth - lead - continuation.length) s).map fun (before, _) => byteWidth before) := by
    rw [findBreak?_bytes s (Nat.sub_pos_of_lt hlead), Nat.sub_add_eq]
  fun_induction contents lead nextLead s with
  | case1 lead s hfits => rw [contentsAt?, if_pos hfits]
  | case2 lead s hwide hcut =>
    rw [contentsAt?, if_neg hwide, hbreak hlead, hcut]
    rfl
  | case3 lead s hwide before after hcut _ ih =>
    have hplace := hbreak hlead s
    rw [hcut] at hplace
    rw [contentsAt?_of_cutsAt hwide (eq_of_cut? hcut) hplace, ih hnextLead, Option.map_some]

/-- `layout` by positions in the bytes. -/
def layoutAt? (depth : Nat) (s : Text) : Option Text :=
  (contentsAt? (2 * depth) (2 * (depth + 2)) s).map (joinLines (2 * depth) (2 * (depth + 2)))

theorem exists_layoutAt?_eq (depth : Nat) (s : Text) : ∃ lines, layoutAt? depth s = some lines := by
  obtain ⟨lines, hlines⟩ := exists_contentsAt?_eq (2 * depth) (2 * (depth + 2)) s
  exact ⟨_, congrArg (Option.map _) hlines⟩

/-- Nothing in a ninja file is indented by more than one step. -/
theorem layoutAt?_eq {depth : Nat} (hdepth : depth ≤ 1) (s : Text) : layoutAt? depth s = some (layout depth s) := by
  have hwidth : 2 * (depth + 2) + continuation.length < lineWidth := by
    have hcontinuation : continuation.length = 2 := rfl
    have hline : lineWidth = 120 := rfl
    omega
  rw [layoutAt?, contentsAt?_eq (by omega) hwidth]
  rfl

end Ninja

end CprojNinja
