import Mathlib.Data.List.Basic
import Mathlib.Tactic.SplitIfs
import Roster.Text.Blank
import Roster.Text.Lowercase

/-!
# Lowercase is reached in one step

The lowercase form of a character has no other lowercase form, and none is a blank unless the
character was one. A capital sigma does not come out of the mapping either, so a second pass
finds nothing that depends on its place.

* `Text.neverPartners`, `Text.lowerRanges_miss` — the code points that are the lowercase partner
  of none, checked run by run against the table;
* `Text.lowerChar_settled`, `Text.lowerChar_unblank` — what follows for one character;
* `Text.LowerForm`, `Text.lowerFrom_cons` — what becomes of one character in a text;
* `Text.lowerFrom_head`, `Text.lowerFrom_getLast` — a text without blanks around it has none around
  it in lowercase;
* `Text.lowercase_eq_self_iff`, `Text.lowercase_lowercase` — the texts in lowercase are those whose
  characters are, and every lowercase form is one.
-/

namespace Roster.Text

/-! ## The table of partners -/

/-- The partner of the first member of a run. -/
def CaseRange.firstPartner (range : CaseRange) : Nat :=
  (range.first + range.distance).toNat

/-- The partner of the last member of a run. -/
def CaseRange.lastPartner (range : CaseRange) : Nat :=
  (range.last + range.distance).toNat

/-- Whether all members of a run are even, or all odd. -/
def CaseRange.keepsParity (range : CaseRange) : Bool :=
  range.step == 2 || range.first == range.last

/-- Whether no partner of a member of the run is a member of the other: the partners lie before it
or after it, or differ from it in parity. -/
def CaseRange.misses (range other : CaseRange) : Bool :=
  Nat.blt range.lastPartner other.first || (Nat.blt other.last range.firstPartner ||
    (range.keepsParity && other.keepsParity && (range.firstPartner + other.first) % 2 == 1))

/-- The characters with the property White_Space, in runs. -/
def blankRuns : List CaseRange :=
  [⟨0x9, 0xD, 1, 0⟩, ⟨0x20, 0x20, 1, 0⟩, ⟨0x85, 0x85, 1, 0⟩, ⟨0xA0, 0xA0, 1, 0⟩,
   ⟨0x1680, 0x1680, 1, 0⟩, ⟨0x2000, 0x200A, 1, 0⟩, ⟨0x2028, 0x2029, 1, 0⟩, ⟨0x202F, 0x202F, 1, 0⟩,
   ⟨0x205F, 0x205F, 1, 0⟩, ⟨0x3000, 0x3000, 1, 0⟩]

/-- Runs of code points that are nobody's partner: those with another lowercase form, the
surrogates, and the blanks. -/
def neverPartners : List CaseRange :=
  ⟨0x130, 0x130, 1, 0⟩ :: ⟨0xD800, 0xDFFF, 1, 0⟩ :: blankRuns ++ lowerRanges

variable {range other : CaseRange} {code : Nat} {c d : Char}

-- A Boolean over numbers, because the kernel evaluates it for every pair of runs.
theorem lowerRanges_miss :
    lowerRanges.all (fun range => neverPartners.all range.misses) = true := by
  decide +kernel

/-- Every partner is a code point. -/
theorem lowerRanges_bounded : ∀ range ∈ lowerRanges,
    0 ≤ (range.first : Int) + range.distance ∧ (range.last : Int) + range.distance < 0x110000 := by
  decide +kernel

theorem CaseRange.covers_iff : range.covers code = true ↔
    range.first ≤ code ∧ code ≤ range.last ∧ (code - range.first) % range.step = 0 := by
  simp [covers, and_assoc]

/-- Members of a run that keeps parity have that of the first. -/
theorem CaseRange.parity (hkeeps : range.keepsParity = true) (hcode : range.covers code = true) :
    (code - range.first) % 2 = 0 := by
  obtain ⟨hfirst, hlast, hstep⟩ := covers_iff.mp hcode
  simp only [keepsParity, Bool.or_eq_true, beq_iff_eq] at hkeeps
  rcases hkeeps with htwo | hsingle
  · rwa [htwo] at hstep
  · omega

/-- A partner of a run that misses another one is no member of that. -/
theorem CaseRange.not_covers_partner (hmisses : range.misses other = true)
    (hbounded : 0 ≤ (range.first : Int) + range.distance) (hcode : range.covers code = true) :
    other.covers ((code : Int) + range.distance).toNat = false := by
  rw [Bool.eq_false_iff]
  intro hpartner
  obtain ⟨hfirst, hlast, -⟩ := covers_iff.mp hcode
  obtain ⟨hfirst', hlast', -⟩ := covers_iff.mp hpartner
  simp only [misses, firstPartner, lastPartner, Bool.or_eq_true, Bool.and_eq_true, Nat.blt_eq,
    beq_iff_eq] at hmisses
  rcases hmisses with hbefore | hafter | ⟨⟨hkeeps, hkeeps'⟩, hparity⟩
  · omega
  · omega
  · -- the partner and the other run would differ in parity
    have hsame := parity hkeeps hcode
    have hsame' := parity hkeeps' hpartner
    omega

/-- The code points that are in no run of the table stand for themselves; the others for their
partner. -/
theorem lowerCode_cases (code : Nat) :
    lowerCode code = code ∨ ∃ range ∈ lowerRanges, range.covers code = true ∧
      lowerCode code = ((code : Int) + range.distance).toNat := by
  unfold lowerCode
  cases hfound : lowerRanges.find? (·.covers code) with
  | none => exact .inl rfl
  | some range =>
    have hcovers := List.find?_some hfound
    exact .inr ⟨range, List.mem_of_find?_eq_some hfound, hcovers, rfl⟩

theorem lowerCode_eq_self (hnone : ∀ range ∈ lowerRanges, range.covers code = false) :
    lowerCode code = code := by
  have hfind : lowerRanges.find? (·.covers code) = none :=
    List.find?_eq_none.mpr fun range hrange => Bool.eq_false_iff.mp (hnone range hrange)
  rw [lowerCode, hfind]

/-- The lowercase form of a code point is the code point itself, or a character that has no other
lowercase form and is no blank. -/
theorem lowerCode_partner (code : Nat) : lowerCode code = code ∨
    (lowerCode code).isValidChar ∧ ∀ run ∈ neverPartners, run.covers (lowerCode code) = false := by
  rcases lowerCode_cases code with hself | ⟨range, hrange, hcovers, hcode⟩
  · exact .inl hself
  · right
    obtain ⟨hlow, hhigh⟩ := lowerRanges_bounded range hrange
    have hmissed : ∀ run ∈ neverPartners, run.covers (lowerCode code) = false := by
      intro run hrun
      have hmisses := List.all_eq_true.mp (List.all_eq_true.mp lowerRanges_miss range hrange) run hrun
      rw [hcode]
      exact CaseRange.not_covers_partner hmisses hlow hcovers
    refine ⟨?_, hmissed⟩
    have hsurrogate : ¬(0xD800 ≤ lowerCode code ∧ lowerCode code ≤ 0xDFFF) := by
      have hnone := hmissed ⟨0xD800, 0xDFFF, 1, 0⟩ (List.mem_cons_of_mem _ List.mem_cons_self)
      simpa [CaseRange.covers, Nat.mod_one] using hnone
    obtain ⟨-, hlast, -⟩ := CaseRange.covers_iff.mp hcovers
    simp only [Nat.isValidChar]
    omega

/-! ## One character -/

theorem isBlank_eq (c : Char) : isBlank c = blankRuns.any (·.covers c.toNat) := by
  rw [Bool.eq_iff_iff]
  simp only [isBlank, blankRuns, CaseRange.covers, List.any_cons, List.any_nil, Bool.or_eq_true,
    Bool.and_eq_true, decide_eq_true_eq, beq_iff_eq, Bool.false_eq_true, or_false, Nat.mod_one,
    and_true]
  omega

/-- Every character of a lowercase form is the one that it is the form of, or a partner of some
character. -/
theorem mem_lowerChar_cases (hd : d ∈ lowerChar c) :
    d = c ∧ lowerChar c = [c] ∨ ∀ run ∈ neverPartners, run.covers d.toNat = false := by
  unfold lowerChar at hd ⊢
  split_ifs at hd ⊢ with hdotted
  · right
    rcases List.mem_cons.mp hd with rfl | hd
    · decide +kernel
    · obtain rfl := List.mem_singleton.mp hd
      decide +kernel
  · obtain rfl := List.mem_singleton.mp hd
    rcases lowerCode_partner c.toNat with hself | ⟨hvalid, hmissed⟩
    · left
      rw [hself, Char.ofNat_toNat]
      exact ⟨rfl, rfl⟩
    · right
      rwa [Char.ofNat, dif_pos hvalid]

/-- A lowercase form has no other lowercase form. -/
theorem lowerChar_settled (hd : d ∈ lowerChar c) : lowerChar d = [d] := by
  rcases mem_lowerChar_cases hd with ⟨rfl, hself⟩ | hmissed
  · exact hself
  · obtain ⟨hdotted, -, hranges⟩ : _ ∧ _ ∧ ∀ run ∈ blankRuns ++ lowerRanges, _ := by
      simpa only [neverPartners, List.cons_append, List.forall_mem_cons] using hmissed
    have hne : d.toNat ≠ 0x130 := by
      intro heq
      rw [heq] at hdotted
      exact absurd hdotted (by decide)
    have hself := lowerCode_eq_self fun range hrange => hranges range (List.mem_append_right _ hrange)
    rw [lowerChar, if_neg hne, hself, Char.ofNat_toNat]

/-- No lowercase form of a character other than a blank is a blank. -/
theorem lowerChar_unblank (hd : d ∈ lowerChar c) (hc : isBlank c = false) : isBlank d = false := by
  rcases mem_lowerChar_cases hd with ⟨rfl, -⟩ | hmissed
  · exact hc
  · rw [isBlank_eq, List.any_eq_false]
    intro run hrun
    have hmem : run ∈ neverPartners :=
      List.mem_cons_of_mem _ (List.mem_cons_of_mem _ (List.mem_append_left _ hrun))
    exact Bool.eq_false_iff.mp (hmissed run hmem)

/-! ## Texts -/

/-- What may become of a character in a text: some characters in lowercase, and blanks of a blank
only. -/
structure LowerForm (c : Char) (form : List Char) : Prop where
  nonempty : form ≠ []
  settled : ∀ d ∈ form, lowerChar d = [d]
  unblank : isBlank c = false → ∀ d ∈ form, isBlank d = false

theorem lowerForm_lowerChar (c : Char) : LowerForm c (lowerChar c) where
  nonempty := by
    unfold lowerChar
    split_ifs <;> exact List.cons_ne_nil _ _
  settled := fun _ hd => lowerChar_settled hd
  unblank := fun hc _ hd => lowerChar_unblank hd hc

/-- Either small sigma is in lowercase. -/
theorem lowerForm_sigma (final : Bool) :
    LowerForm c [if final then finalSigma else smallSigma] where
  nonempty := List.cons_ne_nil _ _
  settled := by
    intro d hd
    obtain rfl := List.mem_singleton.mp hd
    cases final <;> decide +kernel
  unblank := by
    intro _ d hd
    obtain rfl := List.mem_singleton.mp hd
    cases final <;> decide +kernel

variable {text : List Char}

/-- Lowercase of a text is a form of its first character before lowercase of the others. -/
theorem lowerFrom_cons (before : List Char) (c : Char) (rest : List Char) :
    ∃ form, LowerForm c form ∧
      lowerFrom before (c :: rest) = form ++ lowerFrom (c :: before) rest := by
  rw [lowerFrom]
  split
  · exact ⟨_, lowerForm_sigma _, rfl⟩
  · exact ⟨_, lowerForm_lowerChar c, rfl⟩

/-- All characters of a lowercase text are in lowercase. -/
theorem lowerFrom_settled (before text : List Char) :
    ∀ d ∈ lowerFrom before text, lowerChar d = [d] := by
  induction text generalizing before with
  | nil => exact fun d hd => absurd hd List.not_mem_nil
  | cons c rest ih =>
    obtain ⟨form, hform, heq⟩ := lowerFrom_cons before c rest
    rw [heq, List.forall_mem_append]
    exact ⟨hform.settled, ih (c :: before)⟩

theorem lowerFrom_eq_nil {before : List Char} : lowerFrom before text = [] ↔ text = [] := by
  cases text with
  | nil => exact iff_of_true rfl rfl
  | cons c rest =>
    obtain ⟨form, hform, heq⟩ := lowerFrom_cons before c rest
    rw [heq]
    simp [hform.nonempty]

/-- Lowercase brings no blank to the front of a text. -/
theorem lowerFrom_head (before : List Char) (h : ∀ c ∈ text.head?, isBlank c = false) :
    ∀ d ∈ (lowerFrom before text).head?, isBlank d = false := by
  cases text with
  | nil => exact fun d hd => nomatch hd
  | cons c rest =>
    obtain ⟨form, hform, heq⟩ := lowerFrom_cons before c rest
    intro d hd
    rw [heq, List.head?_append_of_ne_nil _ hform.nonempty] at hd
    exact hform.unblank (h c rfl) d (List.mem_of_mem_head? hd)

/-- Nor to its end. -/
theorem lowerFrom_getLast (before : List Char) (h : ∀ c ∈ text.getLast?, isBlank c = false) :
    ∀ d ∈ (lowerFrom before text).getLast?, isBlank d = false := by
  induction text generalizing before with
  | nil => exact fun d hd => nomatch hd
  | cons c rest ih =>
    obtain ⟨form, hform, heq⟩ := lowerFrom_cons before c rest
    intro d hd
    rw [heq] at hd
    -- the last character comes from the last one, which `c` is only if nothing follows it
    by_cases hrest : rest = []
    · subst hrest
      rw [lowerFrom, List.append_nil] at hd
      exact hform.unblank (h c rfl) d (List.mem_of_mem_getLast? hd)
    · rw [List.getLast?_append_of_ne_nil _ (mt lowerFrom_eq_nil.mp hrest)] at hd
      rw [List.getLast?_cons_of_ne_nil hrest] at h
      exact ih (c :: before) h d hd

/-- A text whose characters are in lowercase is left alone. -/
theorem lowerFrom_of_settled (before : List Char) (h : ∀ c ∈ text, lowerChar c = [c]) :
    lowerFrom before text = text := by
  induction text generalizing before with
  | nil => rfl
  | cons c rest ih =>
    obtain ⟨hc, hrest⟩ := List.forall_mem_cons.mp h
    have hsigma : c ≠ capitalSigma := by
      rintro rfl
      exact absurd hc (by decide +kernel)
    rw [lowerFrom, if_neg hsigma, hc, ih _ hrest, List.singleton_append]

/-- The texts in lowercase are those whose characters are. -/
theorem lowercase_eq_self_iff : lowercase text = text ↔ ∀ c ∈ text, lowerChar c = [c] := by
  constructor
  · intro h
    rw [← h]
    exact lowerFrom_settled [] text
  · exact lowerFrom_of_settled []

/-- What is in lowercase stays as it is. -/
theorem lowercase_lowercase (text : List Char) : lowercase (lowercase text) = lowercase text :=
  lowercase_eq_self_iff.mpr (lowerFrom_settled [] text)

end Roster.Text
