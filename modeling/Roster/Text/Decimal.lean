/-!
# Decimal numerals of a chosen width

* `fixed width n` — the last `width` decimal digits of `n`, leading zeros kept;
* `atLeast width n` — all digits of `n`, filled up with zeros to `width`.
-/

namespace Roster.Text

/-- The numeral of one decimal digit. -/
def digit (n : Nat) : Char :=
  Char.ofNat (48 + n % 10)

/-- Exactly `width` digits: those of `n` modulo `10 ^ width`. -/
def fixed : Nat → Nat → List Char
  | 0, _ => []
  | width + 1, n => fixed width (n / 10) ++ [digit n]

/-- The digits of `n`, at least `width` of them. -/
def atLeast (width n : Nat) : List Char :=
  let digits := Nat.toDigits 10 n
  List.replicate (width - digits.length) '0' ++ digits

theorem length_fixed (width n : Nat) : (fixed width n).length = width := by
  induction width generalizing n with
  | zero => rfl
  | succ width ih => simp [fixed, ih]

end Roster.Text
