import Mathlib.Data.List.TakeWhile
import Mathlib.Tactic.SplitIfs
import Roster.Input

/-!
# Checked input is in its final form

* `Text.trim_trim` — what was trimmed is its own trim;
* `TeamName.validate_ok` — a checked name is trimmed, neither empty nor too long, and
  has a slug;
* `Email.lowerFrom_ascii` — in ASCII, lowercase folds a text character by character;
* `Email.normalize_eq` — an address that passes the check is in the form in which
  addresses are compared: its characters are neither blanks nor capitals.
-/

namespace Roster

/-! ## Trimmed texts -/

namespace Text

variable {p : Char → Bool} {text : List Char}

/-- What is dropped from the end leaves a first part. -/
theorem dropEndWhile_prefix (p : Char → Bool) (text : List Char) :
    dropEndWhile p text <+: text := by
  have hsuffix := (List.dropWhile_suffix p (l := text.reverse)).reverse
  rwa [List.reverse_reverse] at hsuffix

theorem head_dropWhile {c : Char} (h : c ∈ (text.dropWhile p).head?) : p c = false := by
  have hnot := List.head?_dropWhile_not p text
  rw [Option.mem_def.mp h] at hnot
  simpa using hnot

theorem getLast_dropEndWhile {c : Char} (h : c ∈ (dropEndWhile p text).getLast?) :
    p c = false := by
  unfold dropEndWhile at h
  rw [List.getLast?_reverse] at h
  exact head_dropWhile h

/-- A trimmed text does not start with a blank. -/
theorem head_trim {c : Char} (h : c ∈ (trim text).head?) : isBlank c = false := by
  obtain ⟨rest, hrest⟩ := dropEndWhile_prefix isBlank (text.dropWhile isBlank)
  refine head_dropWhile (?_ : c ∈ (text.dropWhile isBlank).head?)
  -- the first character is still the first one
  have hhead : (dropEndWhile isBlank (text.dropWhile isBlank)).head? = some c := h
  rw [← hrest, List.head?_append, hhead, Option.some_or]
  exact Option.mem_some_self c

/-- Nor does it end with one. -/
theorem getLast_trim {c : Char} (h : c ∈ (trim text).getLast?) : isBlank c = false :=
  getLast_dropEndWhile h

/-- What was trimmed is its own trim. -/
theorem trim_trim (text : List Char) : trim (trim text) = trim text :=
  trim_eq (fun _ hc => head_trim hc) fun _ hc => getLast_trim hc

end Text

/-! ## Team names -/

/-- A checked name. -/
structure TeamName.Checked (name : String) : Prop where
  trimmed : Text.trim name.toList = name.toList
  nonempty : name ≠ ""
  short : name.length ≤ TeamName.maxLength
  sluggable : slugify name ≠ ""

theorem TeamName.validate_ok {given name : String} (h : TeamName.validate given = .ok name) :
    TeamName.Checked name := by
  unfold validate at h
  dsimp only at h
  split_ifs at h with hempty hlong hslug
  cases h
  exact
    { trimmed := by rw [String.toList_ofList, Text.trim_trim]
      nonempty := by simpa using hempty
      short := by simpa using hlong
      sluggable := by simpa [slugify] using hslug }

/-- What the check gives back is the given name without the blanks around it. -/
theorem TeamName.validate_trim {given name : String} (h : TeamName.validate given = .ok name) :
    String.ofList (Text.trim given.toList) = name := by
  unfold validate at h
  dsimp only at h
  split_ifs at h
  exact Except.ok.inj h

/-! ## Addresses -/

namespace Email

/-- The characters of addresses. -/
def isAddressChar (c : Char) : Bool :=
  isLocalChar c || c == '@'

theorem isLetter_addressChar {c : Char} (h : isLetter c = true) : isAddressChar c = true := by
  simp [isAddressChar, isLocalChar, h]

theorem isHostChar_addressChar {c : Char} (h : isHostChar c = true) : isAddressChar c = true := by
  simp only [isHostChar, Bool.or_eq_true] at h
  rcases h with (((h | h) | h) | h) <;> simp [isAddressChar, isLocalChar, h]

theorem isDomain_chars {domain : List Char} (h : isDomain domain = true) {c : Char}
    (hc : c ∈ domain) : isAddressChar c = true := by
  unfold isDomain at h
  dsimp only at h
  split at h
  · rename_i host hhost
    simp only [Bool.and_eq_true, List.all_eq_true] at h
    have hparts := List.takeWhile_append_dropWhile (p := isLetter) (l := domain.reverse)
    rw [← List.mem_reverse, ← hparts, List.mem_append, hhost, List.mem_cons] at hc
    rcases hc with hc | rfl | hc
    · exact isLetter_addressChar (List.mem_takeWhile_imp hc)
    · rfl
    · exact isHostChar_addressChar (h.2 c hc)
  · cases h

theorem isAddress_chars {text : List Char} (h : isAddress text = true) {c : Char}
    (hc : c ∈ text) : isAddressChar c = true := by
  unfold isAddress at h
  split at h
  · rename_i domain hdomain
    rw [Bool.and_eq_true] at h
    have hparts := List.takeWhile_append_dropWhile (p := isLocalChar) (l := text)
    rw [← hparts, List.mem_append, hdomain, List.mem_cons] at hc
    rcases hc with hc | rfl | hc
    · have hlocal : isLocalChar c = true := List.mem_takeWhile_imp hc
      simp [isAddressChar, hlocal]
    · rfl
    · exact isDomain_chars h.2 hc
  · cases h

/-- The characters of addresses are among the first 128. -/
theorem isAddressChar_toNat {c : Char} (h : isAddressChar c = true) : c.toNat < 128 := by
  have hle : ∀ top : Char, top.toNat < 128 → c ≤ top → c.toNat < 128 := by
    intro top htop hc
    exact Nat.lt_of_le_of_lt (UInt32.le_iff_toNat_le.mp (Char.le_def.mp hc)) htop
  simp only [isAddressChar, isLocalChar, isLetter, Bool.or_eq_true, Bool.and_eq_true,
    decide_eq_true_eq, beq_iff_eq] at h
  rcases h with ((((((⟨-, h⟩ | ⟨-, h⟩) | rfl) | rfl) | rfl) | rfl) | rfl) | rfl
  · exact hle 'z' (by decide) h
  · exact hle '9' (by decide) h
  all_goals decide

/-- What holds of the characters of the first 128 codes holds of every character among them. -/
theorem forall_ascii {p : Char → Prop} (h : ∀ n < 128, p (Char.ofNat n)) {c : Char}
    (hc : c.toNat < 128) : p c := by
  have hchar := h c.toNat hc
  rwa [Char.ofNat_toNat] at hchar

/-- In ASCII, lowercase is folding. -/
theorem lowerChar_ascii {c : Char} (hc : c.toNat < 128) :
    c ≠ Text.capitalSigma ∧ Text.lowerChar c = [c.toLower] := by
  refine forall_ascii (p := fun c => c ≠ Text.capitalSigma ∧ Text.lowerChar c = [c.toLower]) ?_ hc
  decide +kernel

/-- The characters of addresses are neither blanks nor capitals. -/
theorem isAddressChar_plain {c : Char} (h : isAddressChar c = true) :
    Text.isBlank c = false ∧ c.toLower = c := by
  refine forall_ascii (p := fun c => isAddressChar c = true → Text.isBlank c = false ∧
    c.toLower = c) ?_ (isAddressChar_toNat h) h
  decide +kernel

/-- Lowercase folds a text in ASCII. -/
theorem lowerFrom_ascii {text : List Char} (h : ∀ c ∈ text, c.toNat < 128) (before : List Char) :
    Text.lowerFrom before text = text.map Char.toLower := by
  induction text generalizing before with
  | nil => rfl
  | cons c rest ih =>
    rw [List.forall_mem_cons] at h
    obtain ⟨hsigma, hlower⟩ := lowerChar_ascii h.1
    rw [Text.lowerFrom, if_neg hsigma, hlower, ih h.2, List.map_cons, List.singleton_append]

/-- The characters of addresses are folded. -/
theorem map_toLower_eq {text : List Char} (h : ∀ c ∈ text, isAddressChar c = true) :
    text.map Char.toLower = text :=
  (List.map_congr_left fun c hc => (isAddressChar_plain (h c hc)).2).trans (List.map_id _)

/-- The characters of an address that passes the check. -/
theorem validate_chars {email : String} (h : validate email = .ok ()) {c : Char}
    (hc : c ∈ email.toList) : isAddressChar c = true := by
  unfold validate at h
  split_ifs at h with _ _ haddress
  exact isAddress_chars haddress hc

/-- An address that passes the check is normalized. -/
theorem normalize_eq {email : String} (h : validate email = .ok ()) : normalize email = email := by
  have hchars : ∀ c ∈ email.toList, isAddressChar c = true := fun c hc => validate_chars h hc
  have hplain : ∀ c ∈ email.toList, Text.isBlank c = false :=
    fun c hc => (isAddressChar_plain (hchars c hc)).1
  have htrim : Text.trim email.toList = email.toList :=
    Text.trim_eq (fun c hc => hplain c (List.mem_of_mem_head? hc))
      fun c hc => hplain c (List.mem_of_mem_getLast? hc)
  rw [normalize, htrim, Text.lowercase,
    lowerFrom_ascii (fun c hc => isAddressChar_toNat (hchars c hc)), map_toLower_eq hchars,
    String.ofList_toList]

end Email

end Roster
