/-!
# Blanks, and trimming them

`isBlank` is the Unicode property White_Space, which is wider than the ASCII
blanks. `trim` drops blanks at both ends of a text; `dropEndWhile` is the half
of it that works from the end and is used for other characters too.

* `trim_eq` — a text that neither starts nor ends with a blank is its own trim.
-/

namespace Roster.Text

/-- The characters with the Unicode property White_Space. -/
def isBlank (c : Char) : Bool :=
  let n := c.toNat
  (0x9 ≤ n && n ≤ 0xD) || n == 0x20 || n == 0x85 || n == 0xA0 || n == 0x1680 ||
    (0x2000 ≤ n && n ≤ 0x200A) || n == 0x2028 || n == 0x2029 || n == 0x202F ||
    n == 0x205F || n == 0x3000

/-- Drops the longest run of characters satisfying `p` from the end. -/
def dropEndWhile (p : Char → Bool) (text : List Char) : List Char :=
  (text.reverse.dropWhile p).reverse

/-- Drops the blanks at both ends. -/
def trim (text : List Char) : List Char :=
  dropEndWhile isBlank (text.dropWhile isBlank)

theorem dropWhile_eq_self {p : Char → Bool} {text : List Char}
    (h : ∀ c ∈ text.head?, p c = false) : text.dropWhile p = text := by
  cases text with
  | nil => rfl
  | cons c rest => simp [h c (by simp)]

theorem dropEndWhile_eq_self {p : Char → Bool} {text : List Char}
    (h : ∀ c ∈ text.getLast?, p c = false) : dropEndWhile p text = text := by
  unfold dropEndWhile
  rw [dropWhile_eq_self (by simpa using h), List.reverse_reverse]

/-- A text without a blank at either end is left alone. -/
theorem trim_eq {text : List Char} (first : ∀ c ∈ text.head?, isBlank c = false)
    (last : ∀ c ∈ text.getLast?, isBlank c = false) : trim text = text := by
  unfold trim
  rw [dropWhile_eq_self first, dropEndWhile_eq_self last]

end Roster.Text
