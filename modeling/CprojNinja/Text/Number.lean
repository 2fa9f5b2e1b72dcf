import CprojNinja.Text.Basic

/-!
# Numbers

Numbers without a sign, written in digits of a base of at most sixteen. Letters stand for the digits above nine, small or
capital. Anything else in a number, and a number without digits, is refused.
-/

namespace CprojNinja.Text

/-- The value of a digit in a base. -/
def digitValue? (base : Nat) (c : Char) : Option Nat :=
  let value? : Option Nat :=
    if '0' ≤ c ∧ c ≤ '9' then some (c.toNat - '0'.toNat)
    else if 'a' ≤ c ∧ c ≤ 'f' then some (c.toNat - 'a'.toNat + 10)
    else if 'A' ≤ c ∧ c ≤ 'F' then some (c.toNat - 'A'.toNat + 10)
    else none
  value?.filter (· < base)

/-- The number that some digits denote. -/
def number? (base : Nat) (digits : Text) : Option Nat :=
  if digits = [] then none
  else digits.foldlM (fun n c => (digitValue? base c).map (n * base + ·)) 0

end CprojNinja.Text
