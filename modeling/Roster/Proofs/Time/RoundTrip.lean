import Roster.Proofs.Time.Order

/-!
# Written instants are read back

* `Date.isValid_ofDayNumber`, `Date.dayNumber_ofDayNumber` — the date of a day is one that the
  calendar has, and its day is that day;
* `readNumber?_fixed`, `readFraction?_fractionText` and others — each part of a text is read as
  what was written, whatever follows;
* `Instant.ofText?_text` — an instant of the years 0 to 9999 is read back from its text, also
  inside a leap second.
-/

namespace Roster

open Text (fixed digit isBlank length_fixed)

/-! ## The calendar -/

/-- A year is as long as its months. -/
theorem daysBeforeYear_succ (year : Int) :
    daysBeforeYear (year + 1) = daysBeforeYear year + (monthLengths (isLeapYear year)).sum := by
  cases hleap : isLeapYear year with
  | true =>
    have hsum : (monthLengths true).sum = 366 := rfl
    simp only [isLeapYear, Bool.and_eq_true, Bool.or_eq_true, beq_iff_eq, bne_iff_ne] at hleap
    rw [hsum]
    unfold daysBeforeYear
    omega
  | false =>
    have hsum : (monthLengths false).sum = 365 := rfl
    rw [← Bool.not_eq_true, isLeapYear, Bool.and_eq_true, Bool.or_eq_true, beq_iff_eq, bne_iff_ne,
      beq_iff_eq] at hleap
    rw [hsum]
    unfold daysBeforeYear
    omega

/-- A day among the months falls in one of them, and the months before it and the day of the month
lead back to it. -/
theorem monthAndDay_spec (month : Nat) {lengths : List Nat} {day : Nat} (h : day < lengths.sum) :
    ∃ before, (monthAndDay month lengths day).1 = month + before ∧
      1 ≤ (monthAndDay month lengths day).2 ∧
      (monthAndDay month lengths day).2 ≤ lengths.getD before 0 ∧
      (lengths.take before).sum + (monthAndDay month lengths day).2 = day + 1 := by
  induction lengths generalizing month day with
  | nil => exact absurd h (Nat.not_lt_zero day)
  | cons length rest ih =>
    unfold monthAndDay
    by_cases hday : day < length
    · rw [if_pos hday]
      exact ⟨0, rfl, Nat.succ_pos day, hday, Nat.zero_add _⟩
    · rw [List.sum_cons] at h
      rw [if_neg hday]
      have hrest : day - length < rest.sum := by omega
      obtain ⟨before, hmonth, hfirst, hlast, hsum⟩ := ih (month + 1) hrest
      refine ⟨before + 1, by omega, hfirst, hlast, ?_⟩
      rw [List.take_succ_cons, List.sum_cons]
      omega

namespace Date

/-- The day of the year lies among its months. -/
theorem dayOfYear_lt (day : Int) :
    (day - daysBeforeYear (yearOf day)).toNat < (monthLengths (isLeapYear (yearOf day))).sum := by
  obtain ⟨hbegin, hend⟩ := yearOf_spec day
  rw [daysBeforeYear_succ] at hend
  omega

theorem isValid_ofDayNumber (day : Int) : (ofDayNumber day).isValid = true := by
  obtain ⟨before, hmonth, hfirst, hlast, -⟩ := monthAndDay_spec 1 (dayOfYear_lt day)
  simp only [isValid, Bool.and_eq_true, decide_eq_true_eq]
  simp only [ofDayNumber]
  rw [hmonth, Nat.add_sub_cancel_left]
  exact ⟨⟨Nat.le_add_right 1 before, hfirst⟩, hlast⟩

/-- The date of a day has that day's number. -/
theorem dayNumber_ofDayNumber (day : Int) : (ofDayNumber day).dayNumber = day := by
  obtain ⟨before, hmonth, -, -, hsum⟩ := monthAndDay_spec 1 (dayOfYear_lt day)
  have hbegin := (yearOf_spec day).1
  simp only [dayNumber, ofDayNumber]
  rw [hmonth, Nat.add_sub_cancel_left, ← List.sum_eq_foldl_nat]
  omega

end Date

/-! ## Numerals -/

/-- A numeral of one digit is a digit, is no blank, and has its value. -/
theorem digit_spec (n : Nat) :
    (digit n).isDigit = true ∧ isBlank (digit n) = false ∧ (digit n).toNat = 48 + n % 10 := by
  have hdigits : ∀ i : Fin 10, (Char.ofNat (48 + i)).isDigit = true ∧
      isBlank (Char.ofNat (48 + i)) = false ∧ (Char.ofNat (48 + i)).toNat = 48 + i := by
    decide
  exact hdigits ⟨n % 10, Nat.mod_lt n (by decide)⟩

theorem digits_fixed (width n : Nat) :
    ∀ c ∈ fixed width n, c.isDigit = true ∧ isBlank c = false := by
  induction width generalizing n with
  | zero => exact fun _ h => absurd h List.not_mem_nil
  | succ width ih =>
    intro c hc
    rw [fixed, List.mem_append, List.mem_singleton] at hc
    rcases hc with hc | rfl
    · exact ih (n / 10) c hc
    · exact ⟨(digit_spec n).1, (digit_spec n).2.1⟩

theorem digitsValue_append (digits : List Char) (c : Char) :
    digitsValue (digits ++ [c]) = 10 * digitsValue digits + (c.toNat - 48) := by
  rw [digitsValue, List.foldl_append]
  rfl

theorem digitsValue_fixed {width n : Nat} (h : n < 10 ^ width) :
    digitsValue (fixed width n) = n := by
  induction width generalizing n with
  | zero =>
    rw [Nat.pow_zero, Nat.lt_one_iff] at h
    exact h.symm
  | succ width ih =>
    rw [Nat.pow_succ] at h
    rw [fixed, digitsValue_append, ih (by omega), (digit_spec n).2.2]
    omega

/-- A numeral has no blanks before it. -/
theorem dropWhile_fixed (width n : Nat) (rest : List Char) :
    (fixed (width + 1) n ++ rest).dropWhile isBlank = fixed (width + 1) n ++ rest := by
  obtain ⟨c, digits, hfixed⟩ := List.exists_cons_of_length_eq_add_one (length_fixed (width + 1) n)
  have hc : isBlank c = false := (digits_fixed (width + 1) n c (hfixed ▸ List.mem_cons_self)).2
  rw [hfixed, List.cons_append, List.dropWhile_cons_of_neg (by rw [hc]; decide)]

theorem takeWhile_fixed (width n : Nat) {rest : List Char}
    (h : rest.takeWhile Char.isDigit = []) :
    (fixed width n ++ rest).takeWhile Char.isDigit = fixed width n := by
  rw [List.takeWhile_append_of_pos fun c hc => (digits_fixed width n c hc).1, h, List.append_nil]

theorem drop_fixed (width n : Nat) (rest : List Char) :
    (fixed width n ++ rest).drop width = rest :=
  List.drop_left' (length_fixed width n)

theorem fixed_ne_nil (width n : Nat) : fixed (width + 1) n ≠ [] := by
  refine List.ne_nil_of_length_pos ?_
  rw [length_fixed]
  exact Nat.succ_pos width

/-- A numeral of the given width is read as its number, whatever follows. -/
theorem readNumber?_fixed {width n : Nat} (h : n < 10 ^ (width + 1)) (rest : List Char) :
    readNumber? (width + 1) (fixed (width + 1) n ++ rest) = some (n, rest) := by
  have htake : (fixed (width + 1) n ++ rest).take (width + 1) = fixed (width + 1) n := by
    rw [List.take_append_of_le_length (Nat.le_of_eq (length_fixed _ _).symm),
      List.take_of_length_le (Nat.le_of_eq (length_fixed _ _))]
  have hdigits := takeWhile_fixed (width + 1) n List.takeWhile_nil
  rw [List.append_nil] at hdigits
  simp only [readNumber?, dropWhile_fixed, htake, hdigits, length_fixed, drop_fixed,
    digitsValue_fixed h, if_neg (fixed_ne_nil width n)]

/-! ## Marks, years and fractions -/

theorem readMark?_cons {mark : Char} (h : isBlank mark = false) (rest : List Char) :
    readMark? mark (mark :: rest) = some rest := by
  rw [readMark?, List.dropWhile_cons_of_neg (by rw [h]; decide)]
  exact if_pos rfl

/-- A year of four digits begins with no sign. -/
theorem readYear?_fixed {year : Nat} (h : year < 10 ^ 4) (rest : List Char) :
    readYear? (fixed 4 year ++ rest) = some ((year : Int), rest) := by
  have hread := readNumber?_fixed h rest
  have hblanks := dropWhile_fixed 3 year rest
  obtain ⟨c, digits, hfixed⟩ := List.exists_cons_of_length_eq_add_one (length_fixed 4 year)
  have hdigit : c.isDigit = true := (digits_fixed 4 year c (hfixed ▸ List.mem_cons_self)).1
  rw [hfixed, List.cons_append] at hread hblanks ⊢
  unfold readYear?
  rw [hblanks]
  split
  · rename_i heq
    cases heq
    exact absurd hdigit (by decide)
  · rename_i heq
    cases heq
    exact absurd hdigit (by decide)
  · rw [hread]
    rfl

/-- A fraction of up to nine digits is read in nanoseconds. -/
theorem readFraction?_fixed {width n : Nat} (hwidth : width + 1 ≤ 9) (h : n < 10 ^ (width + 1))
    {rest : List Char} (hrest : rest.takeWhile Char.isDigit = []) :
    readFraction? ('.' :: (fixed (width + 1) n ++ rest)) =
      some (n * 10 ^ (9 - (width + 1)), rest) := by
  have hkept : (fixed (width + 1) n).take 9 = fixed (width + 1) n :=
    List.take_of_length_le (by rw [length_fixed]; exact hwidth)
  simp only [readFraction?, takeWhile_fixed _ _ hrest, if_neg (fixed_ne_nil width n), hkept,
    digitsValue_fixed h, length_fixed, drop_fixed, Nat.pow_eq]

/-- The fraction that is written is read as its nanoseconds. -/
theorem readFraction?_fractionText {nanos : Nat} (h : nanos < 1000000000) :
    readFraction? (fractionText nanos ++ ['Z']) = some (nanos, ['Z']) := by
  have hzone : ['Z'].takeWhile Char.isDigit = [] := rfl
  unfold fractionText
  split
  · rename_i hzero
    rw [hzero]
    rfl
  · split
    · rename_i hmillis
      rw [List.cons_append, readFraction?_fixed (by decide) (by omega) hzone]
      congr 2
      omega
    · split
      · rename_i hmicros
        rw [List.cons_append, readFraction?_fixed (by decide) (by omega) hzone]
        congr 2
        omega
      · rw [List.cons_append, readFraction?_fixed (by decide) (by omega) hzone]
        congr 2
        omega

/-! ## Instants -/

namespace Instant

/-- The second of the minute and the nanoseconds come back from how they are written, with the
leap second that has passed. -/
theorem unfoldLeap_written (t : Instant) :
    unfoldLeap (t.secondOfDay % 60 + t.nano / 1000000000) (t.nano % 1000000000) =
      (t.secondOfDay % 60, t.nano) := by
  obtain ⟨-, hleaps⟩ := secondOfDay_spec t
  unfold unfoldLeap
  by_cases hleap : t.nano / 1000000000 = 0
  · have hnano : t.nano % 1000000000 = t.nano := by omega
    rw [if_neg (by omega), hleap, Nat.add_zero, hnano]
  · rw [if_pos (by omega), Prod.mk.injEq]
    omega

/-- The date and the time of day come back as the second. -/
theorem civilSecond?_written (t : Instant) :
    civilSecond? t.date (t.secondOfDay / 3600) (t.secondOfDay / 60 % 60) (t.secondOfDay % 60) =
      some t.second := by
  have hvalid : t.date.isValid = true := Date.isValid_ofDayNumber _
  have hday : t.date.dayNumber = t.second / 86400 + epochDay := Date.dayNumber_ofDayNumber _
  have hsecond : t.secondOfDay = (t.second % 86400).toNat := rfl
  unfold civilSecond?
  rw [if_pos ⟨hvalid, by omega, by omega, by omega⟩, hday]
  congr 1
  omega

/-- An instant of the years 0 to 9999 is read back from its text. -/
theorem ofText?_text {t : Instant} (h : t.InFourDigits) : ofText? t.text.toList = some t := by
  obtain ⟨hsecond, hleaps⟩ := secondOfDay_spec t
  have hmonth : t.date.month < 100 := Date.ofDayNumber_month_lt _
  have hday : t.date.day < 100 := Date.ofDayNumber_day_lt _
  have hdash : isBlank '-' = false := by decide
  have hcolon : isBlank ':' = false := by decide
  have htext : t.text.toList = fixed 4 t.date.year.toNat ++ '-' :: (fixed 2 t.date.month ++
      '-' :: (fixed 2 t.date.day ++ 'T' :: (fixed 2 (t.secondOfDay / 3600) ++
        ':' :: (fixed 2 (t.secondOfDay / 60 % 60) ++
          ':' :: (fixed 2 (t.secondOfDay % 60 + t.nano / 1000000000) ++
            (fractionText (t.nano % 1000000000) ++ ['Z'])))))) := by
    simp only [text, String.toList_ofList, localText, Date.text, yearText_eq_fixed h, clockText,
      List.append_assoc, List.cons_append]
  have hyear : ∀ rest, readYear? (fixed 4 t.date.year.toNat ++ rest) =
      some (t.date.year, rest) := by
    intro rest
    obtain ⟨hfirst, hlast⟩ := h
    rw [readYear?_fixed (by omega), Int.toNat_of_nonneg hfirst]
  have hpair : ∀ n, n < 10 ^ 2 → ∀ rest, readNumber? 2 (fixed 2 n ++ rest) = some (n, rest) :=
    fun n hn rest => readNumber?_fixed hn rest
  have hseparator : ∀ rest, readSeparator? ('T' :: rest) = some rest := fun _ => rfl
  have hfraction := readFraction?_fractionText (Nat.mod_lt t.nano (show 0 < 1000000000 by decide))
  have hzone : readZone? ['Z'] = some (0, []) := by decide
  rw [htext]
  -- each part is read off the front of the text, in order
  refine Option.bind_eq_some_iff.mpr ⟨_, hyear _, ?_⟩
  refine Option.bind_eq_some_iff.mpr ⟨_, readMark?_cons hdash _, ?_⟩
  refine Option.bind_eq_some_iff.mpr ⟨_, hpair t.date.month hmonth _, ?_⟩
  refine Option.bind_eq_some_iff.mpr ⟨_, readMark?_cons hdash _, ?_⟩
  refine Option.bind_eq_some_iff.mpr ⟨_, hpair t.date.day hday _, ?_⟩
  refine Option.bind_eq_some_iff.mpr ⟨_, hseparator _, ?_⟩
  refine Option.bind_eq_some_iff.mpr ⟨_, hpair (t.secondOfDay / 3600) (by omega) _, ?_⟩
  refine Option.bind_eq_some_iff.mpr ⟨_, readMark?_cons hcolon _, ?_⟩
  refine Option.bind_eq_some_iff.mpr ⟨_, hpair (t.secondOfDay / 60 % 60) (by omega) _, ?_⟩
  refine Option.bind_eq_some_iff.mpr ⟨_, readMark?_cons hcolon _, ?_⟩
  refine Option.bind_eq_some_iff.mpr
    ⟨_, hpair (t.secondOfDay % 60 + t.nano / 1000000000) (by omega) _, ?_⟩
  refine Option.bind_eq_some_iff.mpr ⟨_, hfraction, ?_⟩
  refine Option.bind_eq_some_iff.mpr ⟨_, hzone, ?_⟩
  refine Option.bind_eq_some_iff.mpr ⟨(), rfl, ?_⟩
  -- what was read is the instant
  rw [t.unfoldLeap_written]
  refine Option.bind_eq_some_iff.mpr ⟨_, t.civilSecond?_written, ?_⟩
  refine Option.bind_eq_some_iff.mpr ⟨_, t.at?_self, ?_⟩
  rw [Int.sub_zero, at?_self]

end Instant

end Roster
