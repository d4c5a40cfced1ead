import Mathlib.Data.Char
import Roster.Proofs.Time.Calendar
import Roster.Time.Text

/-!
# The order of stored texts

Within a year, of two instants the earlier one has the lesser text. Between
years the texts of the years decide, and these follow the years only as long as
both have four digits: a plus sign comes before a minus sign, both come before
the digits, and of signed years the first digits count most.

* `fixed_lt` — numerals of one width are in the order of their numbers;
* `yearText_append_lt`, `Date.dayText_lt`, `clockText_lt`, `fractionText_lt` —
  the parts of a text;
* `Instant.storedText_lt_iff_writtenBefore` — the order of any two texts;
  `Instant.writtenBefore_iff_lt` says when it is the order of the instants;
* `Instant.storedText_lt_iff` — in the years 0 to 9999 a comparison of texts is
  a comparison of instants.
-/

namespace Roster

open Text (fixed atLeast digit length_fixed)

/-! ## Numerals -/

theorem text_eq_of_not_lt {l m : List Char} (h : ¬l < m) (h' : ¬m < l) : l = m :=
  List.le_antisymm (List.not_lt.mp h') (List.not_lt.mp h)

/-- The first difference within texts of one length decides, whatever follows. -/
theorem append_lt_append {l m : List Char} (hlength : l.length = m.length) (h : l < m)
    (r s : List Char) : l ++ r < m ++ s := by
  induction l generalizing m with
  | nil =>
    cases m with
    | nil => cases h
    | cons d m => cases hlength
  | cons c l ih =>
    cases m with
    | nil => cases hlength
    | cons d m =>
      rw [List.cons_lt_cons_iff] at h
      simp only [List.cons_append, List.cons_lt_cons_iff]
      exact h.imp id fun ⟨hcd, hlm⟩ => ⟨hcd, ih (Nat.succ.inj hlength) hlm⟩

/-- Texts that go on after a mark are in order by what stands before it, and then by what
follows, if the mark comes before all characters that stand before it. -/
theorem append_cons_lt_append_cons {mark : Char} {l m : List Char} (hl : ∀ c ∈ l, mark < c)
    (hm : ∀ c ∈ m, mark < c) (r s : List Char) :
    l ++ mark :: r < m ++ mark :: s ↔ l < m ∨ l = m ∧ r < s := by
  induction l generalizing m with
  | nil =>
    cases m with
    | nil => simp
    | cons d m => simp [List.cons_lt_cons_iff, hm d List.mem_cons_self]
  | cons c l ih =>
    cases m with
    | nil =>
      have hc := hl c List.mem_cons_self
      simp [List.cons_lt_cons_iff, lt_asymm hc, ne_of_gt hc]
    | cons d m =>
      rw [List.forall_mem_cons] at hl hm
      simp only [List.cons_append, List.cons_lt_cons_iff, ih hl.2 hm.2, List.cons.injEq,
        and_or_left, or_assoc, and_assoc]

theorem digit_lt {a b : Nat} (h : a % 10 < b % 10) : digit a < digit b := by
  have hdigits : ∀ i j : Fin 10, i < j → Char.ofNat (48 + i) < Char.ofNat (48 + j) := by decide
  exact hdigits ⟨a % 10, Nat.mod_lt a (by decide)⟩ ⟨b % 10, Nat.mod_lt b (by decide)⟩ h

/-- Numerals of one width are in the order of their numbers. -/
theorem fixed_lt {width a b : Nat} (h : a < b) (hb : b < 10 ^ width) :
    fixed width a < fixed width b := by
  induction width generalizing a b with
  | zero => omega
  | succ width ih =>
    rw [Nat.pow_succ] at hb
    rcases Nat.lt_or_eq_of_le (Nat.div_le_div_right (c := 10) (Nat.le_of_lt h)) with hdiv | hdiv
    · exact append_lt_append (by rw [length_fixed, length_fixed]) (ih hdiv (by omega)) _ _
    · have hmod : a % 10 < b % 10 := by omega
      rw [fixed, fixed, hdiv]
      exact List.append_left_lt (.rel (digit_lt hmod))

/-- The same, whatever follows. -/
theorem fixed_append_lt {width a b : Nat} (h : a < b) (hb : b < 10 ^ width) (r s : List Char) :
    fixed width a ++ r < fixed width b ++ s :=
  append_lt_append (by rw [length_fixed, length_fixed]) (fixed_lt h hb) r s

theorem zero_le_digit (n : Nat) : '0' ≤ digit n := by
  have hdigits : ∀ i : Fin 10, '0' ≤ Char.ofNat (48 + i) := by decide
  exact hdigits ⟨n % 10, Nat.mod_lt n (by decide)⟩

theorem zero_le_of_mem_fixed {width n : Nat} {c : Char} (h : c ∈ fixed width n) : '0' ≤ c := by
  induction width generalizing n with
  | zero => cases h
  | succ width ih =>
    rw [fixed, List.mem_append, List.mem_singleton] at h
    rcases h with h | rfl
    · exact ih h
    · exact zero_le_digit n

/-- A numeral begins with a digit, which comes after a sign. -/
theorem sign_lt_fixed {sign : Char} (hsign : sign < '0') (zone : List Char) (width n : Nat)
    (rest : List Char) : sign :: zone < fixed (width + 1) n ++ rest := by
  induction width generalizing n rest with
  | zero => exact .rel (lt_of_lt_of_le hsign (zero_le_digit n))
  | succ width ih =>
    rw [fixed, List.append_assoc]
    exact ih (n / 10) _

theorem fixed_inj {width a b : Nat} (ha : a < 10 ^ width) (hb : b < 10 ^ width) :
    fixed width a = fixed width b ↔ a = b := by
  refine ⟨?_, congrArg (fixed width)⟩
  intro h
  rcases Nat.lt_trichotomy a b with hlt | heq | hlt
  · exact absurd (h ▸ fixed_lt hlt hb) (List.lt_irrefl _)
  · exact heq
  · exact absurd (h ▸ fixed_lt hlt ha) (List.lt_irrefl _)

/-- The zeros that fill up a numeral leave its number alone. -/
theorem ofDigitChars_atLeast (width n : Nat) : Nat.ofDigitChars 10 (atLeast width n) 0 = n := by
  have hzeros : ∀ count, Nat.ofDigitChars 10 (List.replicate count '0') 0 = 0 := by
    intro count
    induction count with
    | zero => rfl
    | succ count ih =>
      rw [List.replicate_succ, Nat.ofDigitChars_cons]
      exact ih
  rw [atLeast, Nat.ofDigitChars_append, hzeros, Nat.ofDigitChars_toDigits (by decide) (by decide)]

theorem zero_le_of_mem_atLeast {width n : Nat} {c : Char} (h : c ∈ atLeast width n) :
    '0' ≤ c := by
  rw [atLeast, List.mem_append, List.mem_replicate] at h
  rcases h with ⟨-, rfl⟩ | h
  · exact le_refl _
  · have hdigit := Nat.isDigit_of_mem_toDigits (by decide) (by decide) h
    rw [Char.isDigit, Bool.and_eq_true, decide_eq_true_eq] at hdigit
    exact hdigit.1

/-! ## Years -/

section

variable {y z : Int}

theorem yearText_eq_fixed (h : 0 ≤ y ∧ y ≤ 9999) : yearText y = fixed 4 y.toNat :=
  if_pos h

/-- A year outside four digits begins with a sign. -/
theorem yearText_eq_cons (h : ¬(0 ≤ y ∧ y ≤ 9999)) :
    yearText y = (if y < 0 then '-' else '+') :: atLeast 4 y.natAbs :=
  if_neg h

/-- Years of four digits are in the order of their texts. -/
theorem yearText_lt (hy : 0 ≤ y ∧ y ≤ 9999) (hz : 0 ≤ z ∧ z ≤ 9999) (h : y < z) :
    yearText y < yearText z := by
  rw [yearText_eq_fixed hy, yearText_eq_fixed hz]
  exact fixed_lt (by omega) (by omega)

/-- A year with a sign, before or after those of four digits, is written before them. -/
theorem yearText_lt_of_signed (hy : ¬(0 ≤ y ∧ y ≤ 9999)) (hz : 0 ≤ z ∧ z ≤ 9999) :
    yearText y < yearText z := by
  rw [yearText_eq_cons hy, yearText_eq_fixed hz, ← List.append_nil (fixed 4 z.toNat)]
  refine sign_lt_fixed ?_ _ 3 _ []
  split <;> decide

theorem yearText_inj : yearText y = yearText z ↔ y = z := by
  refine ⟨?_, congrArg yearText⟩
  intro h
  by_cases hy : 0 ≤ y ∧ y ≤ 9999
  · by_cases hz : 0 ≤ z ∧ z ≤ 9999
    · rw [yearText_eq_fixed hy, yearText_eq_fixed hz, fixed_inj (by omega) (by omega)] at h
      omega
    · exact absurd (h ▸ yearText_lt_of_signed hz hy) (List.lt_irrefl _)
  · by_cases hz : 0 ≤ z ∧ z ≤ 9999
    · exact absurd (h ▸ yearText_lt_of_signed hy hz) (List.lt_irrefl _)
    · rw [yearText_eq_cons hy, yearText_eq_cons hz, List.cons.injEq] at h
      have habs : y.natAbs = z.natAbs := by
        rw [← ofDigitChars_atLeast 4 y.natAbs, h.2, ofDigitChars_atLeast]
      have hsign : y < 0 ↔ z < 0 := by
        have hsigns := h.1
        split at hsigns <;> split at hsigns <;> first | omega | cases hsigns
      omega

/-- After the first character of a year come digits only. -/
theorem minus_lt_of_mem_yearText {c d : Char} {l : List Char} (h : yearText y = c :: l)
    (hd : d ∈ l) : '-' < d := by
  have hminus : '-' < '0' := by decide
  refine lt_of_lt_of_le hminus ?_
  by_cases hy : 0 ≤ y ∧ y ≤ 9999
  · rw [yearText_eq_fixed hy] at h
    exact zero_le_of_mem_fixed (h ▸ List.mem_cons_of_mem c hd)
  · rw [yearText_eq_cons hy, List.cons.injEq] at h
    exact zero_le_of_mem_atLeast (h.2 ▸ hd)

theorem yearText_ne_nil (y : Int) : yearText y ≠ [] := by
  by_cases hy : 0 ≤ y ∧ y ≤ 9999
  · rw [yearText_eq_fixed hy]
    exact List.ne_nil_of_length_pos (by rw [length_fixed]; decide)
  · rw [yearText_eq_cons hy]
    exact List.cons_ne_nil _ _

/-- Texts that go on after the year are in order by the texts of the years, and within a
year by what follows. -/
theorem yearText_append_lt (r s : List Char) :
    yearText y ++ '-' :: r < yearText z ++ '-' :: s ↔
      yearText y < yearText z ∨ y = z ∧ r < s := by
  obtain ⟨c, l, hy⟩ := List.exists_cons_of_ne_nil (yearText_ne_nil y)
  obtain ⟨d, m, hz⟩ := List.exists_cons_of_ne_nil (yearText_ne_nil z)
  have hrest := append_cons_lt_append_cons (fun _ => minus_lt_of_mem_yearText hy)
    (fun _ => minus_lt_of_mem_yearText hz) r s
  simp only [← yearText_inj, hy, hz, List.cons_append, List.cons_lt_cons_iff, hrest,
    List.cons.injEq, and_or_left, or_assoc, and_assoc]

end

/-! ## Days and times of day -/

/-- The month and the day of a date. -/
def Date.dayText (date : Date) : List Char :=
  fixed 2 date.month ++ '-' :: fixed 2 date.day

/-- Days of a year have texts in their order. -/
theorem Date.dayText_lt {a b : Date}
    (h : a.month < b.month ∨ a.month = b.month ∧ a.day < b.day) (hmonth : b.month < 100)
    (hday : b.day < 100) : a.dayText < b.dayText := by
  unfold dayText
  rcases h with hmonth' | ⟨hmonth', hday'⟩
  · exact fixed_append_lt hmonth' hmonth _ _
  · rw [hmonth']
    exact List.append_left_lt (.cons (fixed_lt hday' hday))

theorem Date.length_dayText (date : Date) : date.dayText.length = 5 := by
  simp only [dayText, List.length_append, List.length_cons, length_fixed]

theorem length_clockText (second leaps : Nat) : (clockText second leaps).length = 8 := by
  simp only [clockText, List.length_append, List.length_cons, length_fixed]

/-- Times of day have texts in their order. A leap second only comes after the last second
of its minute, so it does not overtake. -/
theorem clockText_lt {second later leaps leaps' : Nat} (hlater : later < 86400)
    (hleaps : leaps = 0 ∨ leaps ≤ 1 ∧ second % 60 = 59) (hleaps' : leaps' ≤ 1)
    (h : second < later ∨ second = later ∧ leaps < leaps') :
    clockText second leaps < clockText later leaps' := by
  simp only [clockText, List.append_assoc, List.cons_append]
  by_cases hhour : second / 3600 < later / 3600
  · exact fixed_append_lt hhour (by omega) _ _
  · have hsame : second / 3600 = later / 3600 := by omega
    rw [hsame]
    refine List.append_left_lt (.cons ?_)
    by_cases hminute : second / 60 % 60 < later / 60 % 60
    · exact fixed_append_lt hminute (by omega) _ _
    · have hsame' : second / 60 % 60 = later / 60 % 60 := by omega
      rw [hsame']
      refine List.append_left_lt (.cons ?_)
      exact fixed_lt (by omega) (by omega)

/-! ## Fractions -/

/-- The first of so many groups of three digits, up to the last one that is not zero. -/
def groups : Nat → Nat → List Char
  | 0, _ => []
  | count + 1, n =>
    if n = 0 then [] else fixed 3 (n / 1000 ^ count) ++ groups count (n % 1000 ^ count)

/-- A numeral shows its number modulo a power of ten. -/
theorem fixed_congr {width n m : Nat} (h : n % 10 ^ width = m % 10 ^ width) :
    fixed width n = fixed width m := by
  induction width generalizing n m with
  | zero => rfl
  | succ width ih =>
    rw [Nat.pow_succ, Nat.mul_comm] at h
    have hdiv : n / 10 % 10 ^ width = m / 10 % 10 ^ width := by
      rw [← Nat.mod_mul_right_div_self, ← Nat.mod_mul_right_div_self, h]
    have hmod : n % 10 = m % 10 := by
      rw [← Nat.mod_mul_right_mod n 10 (10 ^ width), h, Nat.mod_mul_right_mod]
    rw [fixed, fixed, ih hdiv, digit, digit, hmod]

/-- The last three digits of a numeral. -/
theorem fixed_add_three (width n : Nat) :
    fixed (width + 3) n = fixed width (n / 1000) ++ fixed 3 n := by
  simp only [fixed, List.append_assoc, List.nil_append, List.cons_append, Nat.div_div_eq_div_mul]

/-- A fraction is a point and its groups of digits. -/
theorem fractionText_eq (nanos : Nat) :
    fractionText nanos = if nanos = 0 then [] else '.' :: groups 3 nanos := by
  unfold fractionText
  by_cases hzero : nanos = 0
  · rw [if_pos hzero, if_pos hzero]
  · rw [if_neg hzero, if_neg hzero]
    simp only [groups, if_neg hzero, Nat.reducePow]
    by_cases hmillis : nanos % 1000000 = 0
    · rw [if_pos hmillis, if_pos hmillis, List.append_nil]
    · rw [if_neg hmillis, if_neg hmillis]
      have hmiddle : fixed 3 (nanos / 1000) = fixed 3 (nanos % 1000000 / 1000) :=
        fixed_congr (by omega)
      have hlast : fixed 3 nanos = fixed 3 (nanos % 1000000 % 1000) := fixed_congr (by omega)
      have hmod : nanos % 1000000 % 1000 = nanos % 1000 := by omega
      by_cases hmicros : nanos % 1000 = 0
      · rw [if_pos hmicros, if_pos (hmod.trans hmicros), List.append_nil, fixed_add_three 3,
          Nat.div_div_eq_div_mul, hmiddle]
      · rw [if_neg hmicros, if_neg (hmod ▸ hmicros), List.append_nil, fixed_add_three 6,
          fixed_add_three 3, Nat.div_div_eq_div_mul, List.append_assoc, hmiddle, hlast,
          Nat.div_one]

/-- Groups of digits are in the order of their numbers, if what follows begins with a plus
sign: the shorter text is of the lesser number. -/
theorem groups_lt {count n m : Nat} (h : n < m) (hm : m < 1000 ^ count) (zone : List Char) :
    groups count n ++ '+' :: zone < groups count m ++ '+' :: zone := by
  induction count generalizing n m with
  | zero => omega
  | succ count ih =>
    have hpos : m ≠ 0 := by omega
    rw [Nat.pow_succ] at hm
    unfold groups
    rw [if_neg hpos]
    by_cases hzero : n = 0
    · rw [if_pos hzero, List.append_assoc]
      exact sign_lt_fixed (by decide) zone 2 _ _
    · rw [if_neg hzero, List.append_assoc, List.append_assoc]
      rcases Nat.lt_or_eq_of_le (Nat.div_le_div_right (c := 1000 ^ count) (Nat.le_of_lt h)) with
        hdiv | hdiv
      · exact fixed_append_lt hdiv (Nat.div_lt_of_lt_mul hm) _ _
      · rw [hdiv]
        refine List.append_left_lt (ih ?_ (Nat.mod_lt m (Nat.pow_pos (by decide))))
        have hn := Nat.div_add_mod n (1000 ^ count)
        have hm' := Nat.div_add_mod m (1000 ^ count)
        rw [hdiv] at hn
        omega

/-- Fractions before a zone are in the order of their nanoseconds. -/
theorem fractionText_lt {nanos later : Nat} (h : nanos < later) (hlater : later < 1000000000)
    (zone : List Char) :
    fractionText nanos ++ '+' :: zone < fractionText later ++ '+' :: zone := by
  have hpos : later ≠ 0 := by omega
  rw [fractionText_eq, fractionText_eq, if_neg hpos]
  by_cases hzero : nanos = 0
  · rw [if_pos hzero]
    exact .rel (by decide)
  · rw [if_neg hzero]
    exact .cons (groups_lt h hlater zone)

/-! ## Instants -/

namespace Instant

/-- The year of the instant has four digits. -/
def InFourDigits (t : Instant) : Prop :=
  0 ≤ t.date.year ∧ t.date.year ≤ 9999

instance (t : Instant) : Decidable t.InFourDigits :=
  inferInstanceAs (Decidable (0 ≤ t.date.year ∧ t.date.year ≤ 9999))

/-- Seconds of the day are those of the minute, for instants. -/
theorem secondOfDay_spec (t : Instant) : t.secondOfDay < 86400 ∧
    (t.nano / 1000000000 = 0 ∨ t.nano / 1000000000 ≤ 1 ∧ t.secondOfDay % 60 = 59) := by
  have hsecond := t.inSecond
  unfold secondOfDay
  omega

/-- What follows the year in a stored text. -/
def afterYear (t : Instant) : List Char :=
  t.date.dayText ++ 'T' :: (clockText t.secondOfDay (t.nano / 1000000000) ++
    (fractionText (t.nano % 1000000000) ++ ['+', '0', '0', ':', '0', '0']))

theorem storedText_eq (t : Instant) :
    t.storedText = yearText t.date.year ++ '-' :: t.afterYear := by
  simp only [storedText, localText, Date.text, afterYear, Date.dayText, List.append_assoc,
    List.cons_append]

variable {a b : Instant}

/-- Within a year the earlier instant has the lesser text. -/
theorem afterYear_lt (hyear : a.date.year = b.date.year) (h : a < b) :
    a.afterYear < b.afterYear := by
  obtain ⟨hday, hleaps⟩ := secondOfDay_spec a
  obtain ⟨hday', hleaps'⟩ := secondOfDay_spec b
  unfold afterYear
  rw [lt_iff] at h
  by_cases hlater : a.second / 86400 < b.second / 86400
  · -- on different days month and day decide
    refine append_lt_append ?_ ?_ _ _
    · rw [Date.length_dayText, Date.length_dayText]
    · have hbefore : a.date.Before b.date := Date.ofDayNumber_mono (by omega)
      have hnot : ¬a.date.year < b.date.year := Int.not_lt.mpr (Int.le_of_eq hyear.symm)
      exact Date.dayText_lt (hbefore.resolve_left hnot).2 (Date.ofDayNumber_month_lt _)
        (Date.ofDayNumber_day_lt _)
  · have hdate : a.date = b.date := by
      unfold date
      congr 2
      omega
    rw [hdate]
    refine List.append_left_lt (.cons ?_)
    have hseconds : a.secondOfDay < b.secondOfDay ↔ a.second < b.second := by
      unfold secondOfDay
      omega
    by_cases hclock : a.secondOfDay < b.secondOfDay ∨
        a.secondOfDay = b.secondOfDay ∧ a.nano / 1000000000 < b.nano / 1000000000
    · -- within a day the clock decides
      refine append_lt_append ?_ (clockText_lt hday' hleaps (by omega) hclock) _ _
      rw [length_clockText, length_clockText]
    · -- within a second the fraction decides
      have hsame : a.secondOfDay = b.secondOfDay ∧ a.nano / 1000000000 = b.nano / 1000000000 ∧
          a.nano % 1000000000 < b.nano % 1000000000 := by
        unfold secondOfDay at hclock ⊢
        omega
      rw [hsame.1, hsame.2.1]
      exact List.append_left_lt (fractionText_lt hsame.2.2 (Nat.mod_lt _ (by decide)) _)

theorem lt_trichotomy (a b : Instant) : a < b ∨ a = b ∨ b < a := by
  rw [lt_iff, lt_iff, Instant.ext_iff]
  omega

/-- Within a year the lesser text is of the earlier instant. -/
theorem afterYear_lt_iff (hyear : a.date.year = b.date.year) :
    a.afterYear < b.afterYear ↔ a < b := by
  refine ⟨?_, afterYear_lt hyear⟩
  intro htext
  rcases lt_trichotomy a b with hlt | rfl | hlt
  · exact hlt
  · exact absurd htext (List.lt_irrefl _)
  · exact absurd htext (List.lt_asymm (afterYear_lt hyear.symm hlt))

/-- The order of stored texts: the texts of the years decide, and within a year time. -/
def WrittenBefore (a b : Instant) : Prop :=
  yearText a.date.year < yearText b.date.year ∨ a.date.year = b.date.year ∧ a < b

instance (a b : Instant) : Decidable (a.WrittenBefore b) :=
  inferInstanceAs (Decidable (_ ∨ _ ∧ _))

theorem storedText_lt_iff_writtenBefore : a.storedText < b.storedText ↔ a.WrittenBefore b := by
  rw [storedText_eq, storedText_eq, yearText_append_lt, WrittenBefore]
  exact or_congr_right (and_congr_right afterYear_lt_iff)

/-- Different instants have different texts. -/
theorem storedText_inj : a.storedText = b.storedText ↔ a = b := by
  refine ⟨?_, congrArg storedText⟩
  intro htext
  have hne : ∀ {s t : Instant}, s.storedText = t.storedText → ¬s.WrittenBefore t := by
    intro s t heq hbefore
    rw [← storedText_lt_iff_writtenBefore, heq] at hbefore
    exact List.lt_irrefl _ hbefore
  have hyear : a.date.year = b.date.year := by
    refine yearText_inj.mp (text_eq_of_not_lt ?_ ?_)
    · exact fun hlt => hne htext (.inl hlt)
    · exact fun hlt => hne htext.symm (.inl hlt)
  rcases lt_trichotomy a b with hlt | heq | hlt
  · exact absurd (.inr ⟨hyear, hlt⟩) (hne htext)
  · exact heq
  · exact absurd (.inr ⟨hyear.symm, hlt⟩) (hne htext.symm)

/-! ## The order of time -/

/-- The texts of the two years are in the order of the years. -/
def Aligned (a b : Instant) : Prop :=
  yearText a.date.year < yearText b.date.year ↔ a.date.year < b.date.year

theorem year_mono (h : a < b) : a.date.year ≤ b.date.year := by
  rw [lt_iff] at h
  rcases Int.lt_or_eq_of_le (show a.second / 86400 ≤ b.second / 86400 by omega) with hday | hday
  · exact yearOf_mono (by omega)
  · have hdate : a.date = b.date := congrArg (fun day => Date.ofDayNumber (day + epochDay)) hday
    exact Int.le_of_eq (congrArg Date.year hdate)

/-- In different years the years decide. -/
theorem lt_iff_year_lt (hyear : a.date.year ≠ b.date.year) :
    a < b ↔ a.date.year < b.date.year := by
  constructor
  · intro h
    exact Int.lt_iff_le_and_ne.mpr ⟨year_mono h, hyear⟩
  · intro h
    rcases lt_trichotomy a b with hlt | rfl | hlt
    · exact hlt
    · exact absurd rfl hyear
    · exact absurd (year_mono hlt) (Int.not_le.mpr h)

/-- Two texts are in the order of time if and only if those of their years are. -/
theorem writtenBefore_iff_lt : (a.WrittenBefore b ↔ a < b) ↔ a.Aligned b := by
  unfold WrittenBefore Aligned
  by_cases hyear : a.date.year = b.date.year
  · simp only [hyear, List.lt_irrefl, Int.lt_irrefl, true_and, false_or]
  · rw [lt_iff_year_lt hyear]
    simp only [hyear, false_and, or_false]

theorem aligned_refl (a : Instant) : a.Aligned a :=
  iff_of_false (List.lt_irrefl _) (Int.lt_irrefl _)

theorem Aligned.symm (h : a.Aligned b) : b.Aligned a := by
  unfold Aligned at h ⊢
  rcases Int.lt_trichotomy a.date.year b.date.year with hlt | heq | hlt
  · refine iff_of_false (List.lt_asymm (h.mpr hlt)) (Int.lt_asymm hlt)
  · rw [heq]
    exact iff_of_false (List.lt_irrefl _) (Int.lt_irrefl _)
  · refine iff_of_true ?_ hlt
    -- the other order of the texts is not that of the years, and the years differ
    by_cases htext : yearText b.date.year < yearText a.date.year
    · exact htext
    · have heq := text_eq_of_not_lt htext (mt h.mp (Int.lt_asymm hlt))
      exact absurd (yearText_inj.mp heq) (Int.ne_of_lt hlt)

/-- Seen from a year of four digits, the years up to 9999 are aligned, also those before
year 0, and those after 9999 are not. -/
theorem aligned_iff_of_inFourDigits (hb : b.InFourDigits) :
    a.Aligned b ↔ a.date.year ≤ 9999 := by
  unfold Aligned
  by_cases ha : a.InFourDigits
  · refine iff_of_true ?_ ha.2
    refine ⟨?_, yearText_lt ha hb⟩
    intro htext
    refine Int.not_le.mp ?_
    intro hle
    rcases Int.lt_or_eq_of_le hle with hlt | heq
    · exact List.lt_asymm htext (yearText_lt hb ha hlt)
    · rw [heq] at htext
      exact List.lt_irrefl _ htext
  · -- a sign comes before the digits
    simp only [yearText_lt_of_signed ha hb, true_iff]
    unfold InFourDigits at ha hb
    omega

/-- The lesser text is of the earlier instant. -/
theorem storedText_lt_iff (ha : a.InFourDigits) (hb : b.InFourDigits) :
    a.storedText < b.storedText ↔ a < b := by
  rw [storedText_lt_iff_writtenBefore, writtenBefore_iff_lt]
  exact (aligned_iff_of_inFourDigits hb).mpr ha.2

end Instant

end Roster
