import Mathlib.Computability.RegularExpressions
import Roster.Proofs.Input

/-!
# The grammar of addresses

An address is checked in one pass from each end: the local part is read from the front and the
top-level domain from the back. The grammar is a regular expression whose classes overlap, so
that a text may be cut in several ways before one is found that matches. The two agree, because
the at sign is in no class and no letter is a dot: the cut is forced.

* `Email.pattern` — the grammar as a regular expression;
* `Email.Cut` — a way to cut a text that matches, and `Email.mem_pattern_iff` that these are the
  matches;
* `Email.isAddress_iff_cut` — the check finds a cut if there is one;
* `Email.Spelled`, `Email.Grammatical` — the grammar in words, by the only at sign and the last
  dot, and `Email.Cut.spelled` that every cut is so spelled;
* `Email.Judged` — what the whole check is to come to, and `Email.judged` that it does, for every
  text.
-/

namespace Roster.Email

/-! ## The regular expression -/

/-- The characters from one to another. -/
def charsFrom (first last : Char) : List Char :=
  (List.range' first.toNat (last.toNat + 1 - first.toNat)).map Char.ofNat

/-- The letters `a-z`. -/
def letters : List Char := charsFrom 'a' 'z'

/-- The characters `a-z0-9.-`. -/
def hostAlphabet : List Char := letters ++ charsFrom '0' '9' ++ ['.', '-']

/-- The characters `a-z0-9._%+-`. -/
def localAlphabet : List Char := letters ++ charsFrom '0' '9' ++ ['.', '_', '%', '+', '-']

/-- Any one character of an alphabet. -/
def oneOf (alphabet : List Char) : RegularExpression Char :=
  (alphabet.map .char).sum

/-- One or more characters of an alphabet. -/
def someOf (alphabet : List Char) : RegularExpression Char :=
  oneOf alphabet * .star (oneOf alphabet)

/-- The grammar `[a-z0-9._%+-]+@[a-z0-9.-]+\.[a-z]{2,}` of addresses. -/
def pattern : RegularExpression Char :=
  someOf localAlphabet * .char '@' * someOf hostAlphabet * .char '.' *
    (oneOf letters * someOf letters)

variable {text alphabet : List Char} {c : Char}

theorem mem_oneOf_iff : text ∈ (oneOf alphabet).matches' ↔ ∃ c ∈ alphabet, text = [c] := by
  unfold oneOf
  induction alphabet with
  | nil =>
    simp only [List.map_nil, List.sum_nil, List.not_mem_nil, false_and, exists_false, iff_false]
    exact id
  | cons c rest ih =>
    rw [List.map_cons, List.sum_cons, RegularExpression.matches'_add, Language.mem_add, ih,
      List.exists_mem_cons_iff]
    rfl

/-- The repetitions of an alphabet are the texts over it. -/
theorem mem_star_oneOf_iff :
    text ∈ (RegularExpression.star (oneOf alphabet)).matches' ↔ ∀ c ∈ text, c ∈ alphabet := by
  rw [RegularExpression.matches'_star, Language.mem_kstar]
  constructor
  · rintro ⟨words, rfl, hwords⟩ c hc
    obtain ⟨word, hword, hc⟩ := List.mem_flatten.mp hc
    obtain ⟨d, hd, rfl⟩ := mem_oneOf_iff.mp (hwords word hword)
    rwa [List.mem_singleton.mp hc]
  · intro hchars
    refine ⟨text.map fun c => [c], ?_, ?_⟩
    · rw [← List.flatMap_def, List.flatMap_singleton']
    · intro word hword
      obtain ⟨c, hc, rfl⟩ := List.mem_map.mp hword
      exact mem_oneOf_iff.mpr ⟨c, hchars c hc, rfl⟩

theorem mem_someOf_iff :
    text ∈ (someOf alphabet).matches' ↔ text ≠ [] ∧ ∀ c ∈ text, c ∈ alphabet := by
  rw [someOf, RegularExpression.matches'_mul, Language.mem_mul]
  constructor
  · rintro ⟨first, hfirst, rest, hrest, rfl⟩
    obtain ⟨c, hc, rfl⟩ := mem_oneOf_iff.mp hfirst
    exact ⟨List.cons_ne_nil c rest, List.forall_mem_cons.mpr ⟨hc, mem_star_oneOf_iff.mp hrest⟩⟩
  · rintro ⟨hne, hchars⟩
    obtain ⟨c, rest, rfl⟩ := List.exists_cons_of_ne_nil hne
    rw [List.forall_mem_cons] at hchars
    exact ⟨[c], mem_oneOf_iff.mpr ⟨c, hchars.1, rfl⟩, rest, mem_star_oneOf_iff.mpr hchars.2, rfl⟩

/-! ## Classes and alphabets -/

/-- A class of characters of addresses is an alphabet if they agree in ASCII. -/
theorem mem_alphabet_iff {class_ : Char → Bool}
    (hclass : ∀ c, class_ c = true → isAddressChar c = true)
    (halphabet : (alphabet.all fun c => c.toNat < 128) = true)
    (hagree : ∀ n < 128, Char.ofNat n ∈ alphabet ↔ class_ (Char.ofNat n) = true) :
    c ∈ alphabet ↔ class_ c = true := by
  by_cases hascii : c.toNat < 128
  · exact forall_ascii (p := fun c => c ∈ alphabet ↔ class_ c = true) hagree hascii
  · rw [List.all_eq_true] at halphabet
    exact iff_of_false (fun hc => hascii (of_decide_eq_true (halphabet c hc)))
      fun hc => hascii (isAddressChar_toNat (hclass c hc))

theorem mem_letters_iff : c ∈ letters ↔ isLetter c = true :=
  mem_alphabet_iff (fun _ => isLetter_addressChar) (by decide +kernel) (by decide +kernel)

theorem mem_hostAlphabet_iff : c ∈ hostAlphabet ↔ isHostChar c = true :=
  mem_alphabet_iff (fun _ => isHostChar_addressChar) (by decide +kernel) (by decide +kernel)

theorem mem_localAlphabet_iff : c ∈ localAlphabet ↔ isLocalChar c = true := by
  refine mem_alphabet_iff ?_ (by decide +kernel) (by decide +kernel)
  intro c hc
  simp [isAddressChar, hc]

/-! ## Cuts -/

/-- A way to cut a text into a local part, a host and a top-level domain. -/
structure Cut (text localPart host topLevel : List Char) : Prop where
  written : text = localPart ++ '@' :: (host ++ '.' :: topLevel)
  localNonempty : localPart ≠ []
  localChars : ∀ c ∈ localPart, isLocalChar c = true
  hostNonempty : host ≠ []
  hostChars : ∀ c ∈ host, isHostChar c = true
  topLevelLong : 2 ≤ topLevel.length
  topLevelChars : ∀ c ∈ topLevel, isLetter c = true

/-- The regular expression matches a text if there is a way to cut it. -/
theorem mem_pattern_iff :
    text ∈ pattern.matches' ↔ ∃ localPart host topLevel, Cut text localPart host topLevel := by
  simp only [pattern, RegularExpression.matches'_mul, RegularExpression.matches'_char,
    Language.mem_mul]
  constructor
  · rintro ⟨_, ⟨_, ⟨_, ⟨localPart, hlocal, _, rfl, rfl⟩, host, hhost, rfl⟩, _, rfl, rfl⟩,
      _, ⟨_, hfirst, rest, hrest, rfl⟩, rfl⟩
    obtain ⟨c, hc, rfl⟩ := mem_oneOf_iff.mp hfirst
    rw [mem_someOf_iff] at hlocal hhost hrest
    refine ⟨localPart, host, c :: rest, ?_⟩
    exact
      { written := by simp
        localNonempty := hlocal.1
        localChars := fun d hd => mem_localAlphabet_iff.mp (hlocal.2 d hd)
        hostNonempty := hhost.1
        hostChars := fun d hd => mem_hostAlphabet_iff.mp (hhost.2 d hd)
        topLevelLong := Nat.succ_le_succ (List.length_pos_of_ne_nil hrest.1)
        topLevelChars := List.forall_mem_cons.mpr
          ⟨mem_letters_iff.mp hc, fun d hd => mem_letters_iff.mp (hrest.2 d hd)⟩ }
  · rintro ⟨localPart, host, topLevel, h⟩
    obtain ⟨c, rest, rfl⟩ := List.exists_cons_of_length_pos (Nat.zero_lt_of_lt h.topLevelLong)
    have hrest : rest ≠ [] := List.ne_nil_of_length_pos (Nat.le_of_succ_le_succ h.topLevelLong)
    obtain ⟨hc, hletters⟩ := List.forall_mem_cons.mp h.topLevelChars
    refine ⟨_, ⟨_, ⟨_, ⟨localPart, ?_, _, rfl, rfl⟩, host, ?_, rfl⟩, _, rfl, rfl⟩,
      _, ⟨[c], ?_, rest, ?_, rfl⟩, ?_⟩
    · exact mem_someOf_iff.mpr
        ⟨h.localNonempty, fun d hd => mem_localAlphabet_iff.mpr (h.localChars d hd)⟩
    · exact mem_someOf_iff.mpr
        ⟨h.hostNonempty, fun d hd => mem_hostAlphabet_iff.mpr (h.hostChars d hd)⟩
    · exact mem_oneOf_iff.mpr ⟨c, mem_letters_iff.mpr hc, rfl⟩
    · exact mem_someOf_iff.mpr ⟨hrest, fun d hd => mem_letters_iff.mpr (hletters d hd)⟩
    · rw [h.written]
      simp

/-! ## Reading -/

/-- What a class reads from the front of a text whose next character is not in it. -/
theorem span_eq {p : Char → Bool} {front : List Char} (hfront : ∀ c ∈ front, p c = true)
    (hc : p c = false) (rest : List Char) :
    (front ++ c :: rest).takeWhile p = front ∧
      (front ++ c :: rest).dropWhile p = c :: rest := by
  constructor
  · rw [List.takeWhile_append_of_pos hfront, List.takeWhile_cons_of_neg (by simp [hc]),
      List.append_nil]
  · rw [List.dropWhile_append_of_pos hfront, List.dropWhile_cons_of_neg (by simp [hc])]

/-- A domain is a host and a top-level domain. -/
theorem isDomain_iff {domain : List Char} :
    isDomain domain = true ↔ ∃ host topLevel, domain = host ++ '.' :: topLevel ∧ host ≠ [] ∧
      (∀ c ∈ host, isHostChar c = true) ∧ 2 ≤ topLevel.length ∧
      ∀ c ∈ topLevel, isLetter c = true := by
  constructor
  · intro h
    unfold isDomain at h
    dsimp only at h
    split at h
    · rename_i host hhost
      simp only [Bool.and_eq_true, decide_eq_true_eq, List.all_eq_true, Bool.not_eq_true',
        List.isEmpty_eq_false_iff] at h
      obtain ⟨⟨hlong, hne⟩, hchars⟩ := h
      have hparts := List.takeWhile_append_dropWhile (p := isLetter) (l := domain.reverse)
      rw [hhost] at hparts
      refine ⟨host.reverse, (domain.reverse.takeWhile isLetter).reverse, ?_, ?_, ?_, ?_, ?_⟩
      · have hreversed := congrArg List.reverse hparts
        simpa using hreversed.symm
      · simpa using hne
      · simpa using hchars
      · simpa using hlong
      · intro c hc
        exact List.mem_takeWhile_imp (List.mem_reverse.mp hc)
    · cases h
  · rintro ⟨host, topLevel, rfl, hne, hchars, hlong, hletters⟩
    have hreversed : (host ++ '.' :: topLevel).reverse =
        topLevel.reverse ++ '.' :: host.reverse := by simp
    have hletters' : ∀ c ∈ topLevel.reverse, isLetter c = true :=
      fun c hc => hletters c (List.mem_reverse.mp hc)
    obtain ⟨htake, hdrop⟩ := span_eq hletters' (rfl : isLetter '.' = false) host.reverse
    unfold isDomain
    simp only [hreversed, htake, hdrop]
    simpa [hne, hlong] using hchars

/-- The check finds a cut if there is one. -/
theorem isAddress_iff_cut :
    isAddress text = true ↔ ∃ localPart host topLevel, Cut text localPart host topLevel := by
  constructor
  · intro h
    unfold isAddress at h
    split at h
    · rename_i domain hdomain
      simp only [Bool.and_eq_true, Bool.not_eq_true', List.isEmpty_eq_false_iff] at h
      obtain ⟨hne, hdomain'⟩ := h
      obtain ⟨host, topLevel, rfl, hhost, hchars, hlong, hletters⟩ := isDomain_iff.mp hdomain'
      have hparts := List.takeWhile_append_dropWhile (p := isLocalChar) (l := text)
      rw [hdomain] at hparts
      exact ⟨_, host, topLevel, hparts.symm, hne, fun c => List.mem_takeWhile_imp, hhost, hchars,
        hlong, hletters⟩
    · cases h
  · rintro ⟨localPart, host, topLevel, h⟩
    have hdomain : isDomain (host ++ '.' :: topLevel) = true :=
      isDomain_iff.mpr ⟨host, topLevel, rfl, h.hostNonempty, h.hostChars, h.topLevelLong,
        h.topLevelChars⟩
    have hat : isLocalChar '@' = false := rfl
    obtain ⟨htake, hdrop⟩ := span_eq h.localChars hat (host ++ '.' :: topLevel)
    unfold isAddress
    rw [h.written, htake, hdrop]
    simpa [h.localNonempty] using hdomain

/-! ## The grammar in words -/

/-- The grammar in words: there is one at sign; before it stands a local part, and after it a
domain, whose last dot has a host before it and a top-level domain after it. -/
structure Spelled (text localPart domain host topLevel : List Char) : Prop where
  oneAt : text.count '@' = 1
  written : text = localPart ++ '@' :: domain
  localNonempty : localPart ≠ []
  localChars : ∀ c ∈ localPart, isLocalChar c = true
  domainChars : ∀ c ∈ domain, isHostChar c = true
  lastDot : domain = host ++ '.' :: topLevel ∧ '.' ∉ topLevel
  hostNonempty : host ≠ []
  topLevelLong : 2 ≤ topLevel.length
  topLevelChars : ∀ c ∈ topLevel, isLetter c = true

/-- The texts that are so spelled. -/
def Grammatical (text : List Char) : Prop :=
  ∃ localPart domain host topLevel, Spelled text localPart domain host topLevel

/-- A text is cut at its only at sign and its last dot. -/
theorem Cut.spelled {localPart host topLevel : List Char} (h : Cut text localPart host topLevel) :
    Spelled text localPart (host ++ '.' :: topLevel) host topLevel := by
  have hletterHost : ∀ c, isLetter c = true → isHostChar c = true := by
    intro c hc
    simp [isHostChar, hc]
  have hdomain : ∀ c ∈ host ++ '.' :: topLevel, isHostChar c = true := by
    rw [List.forall_mem_append, List.forall_mem_cons]
    exact ⟨h.hostChars, rfl, fun c hc => hletterHost c (h.topLevelChars c hc)⟩
  -- the at sign is in neither class
  have hlocalAt : '@' ∉ localPart := fun hat => absurd (h.localChars '@' hat) (by decide)
  have hdomainAt : '@' ∉ host ++ '.' :: topLevel := fun hat => absurd (hdomain '@' hat) (by decide)
  exact
    { oneAt := by
        rw [h.written, List.count_append, List.count_cons_self, List.count_eq_zero.mpr hlocalAt,
          List.count_eq_zero.mpr hdomainAt]
      written := h.written
      localNonempty := h.localNonempty
      localChars := h.localChars
      domainChars := hdomain
      lastDot := ⟨rfl, fun hdot => absurd (h.topLevelChars '.' hdot) (by decide)⟩
      hostNonempty := h.hostNonempty
      topLevelLong := h.topLevelLong
      topLevelChars := h.topLevelChars }

/-- The check accepts the texts of the grammar. -/
theorem isAddress_iff_grammatical : isAddress text = true ↔ Grammatical text := by
  rw [isAddress_iff_cut]
  constructor
  · rintro ⟨localPart, host, topLevel, hcut⟩
    exact ⟨localPart, _, host, topLevel, hcut.spelled⟩
  · rintro ⟨localPart, domain, host, topLevel, h⟩
    obtain ⟨rfl, -⟩ := h.lastDot
    refine ⟨localPart, host, topLevel, ?_⟩
    exact
      { written := h.written
        localNonempty := h.localNonempty
        localChars := h.localChars
        hostNonempty := h.hostNonempty
        hostChars := fun c hc => h.domainChars c (List.mem_append_left _ hc)
        topLevelLong := h.topLevelLong
        topLevelChars := h.topLevelChars }

/-! ## The whole check -/

/-- The outcome of the check, by its three questions in order. -/
theorem validate_cases (email : String) :
    (email = "" ∧ validate email = .error .emailEmpty) ∨
    (email ≠ "" ∧ 254 < email.utf8ByteSize ∧ validate email = .error .emailTooLong) ∨
    (email ≠ "" ∧ email.utf8ByteSize ≤ 254 ∧
      validate email = if isAddress email.toList then .ok () else .error .emailMalformed) := by
  unfold validate
  by_cases hempty : email = ""
  · exact .inl ⟨hempty, if_pos hempty⟩
  · by_cases hlong : maxBytes < email.utf8ByteSize
    · exact .inr (.inl ⟨hempty, hlong, by rw [if_neg hempty, if_pos hlong]⟩)
    · exact .inr (.inr ⟨hempty, Nat.not_lt.mp hlong, by rw [if_neg hempty, if_neg hlong]⟩)

/-- What the check of an address comes to, and that the words for the grammar say what the regular
expression does. -/
structure Judged (email : String) : Prop where
  accepted : validate email = .ok () ↔ email.utf8ByteSize ≤ 254 ∧ Grammatical email.toList
  empty : validate email = .error .emailEmpty ↔ email = ""
  tooLong : validate email = .error .emailTooLong ↔ 254 < email.utf8ByteSize
  malformed : validate email = .error .emailMalformed ↔
    email ≠ "" ∧ email.utf8ByteSize ≤ 254 ∧ ¬Grammatical email.toList
  matched : Grammatical email.toList ↔ email.toList ∈ pattern.matches'
  kept : validate email = .ok () → normalize email = email

/-- Every text is judged by the grammar: it is accepted, and then in its normal form, or refused
as empty, as too long or as malformed. -/
theorem judged (email : String) : Judged email := by
  have hgrammar : isAddress email.toList = true ↔ Grammatical email.toList :=
    isAddress_iff_grammatical
  have hmatched : Grammatical email.toList ↔ email.toList ∈ pattern.matches' :=
    hgrammar.symm.trans (isAddress_iff_cut.trans mem_pattern_iff.symm)
  have hkept : validate email = .ok () → normalize email = email := normalize_eq
  rcases validate_cases email with ⟨rfl, hcheck⟩ | ⟨hne, hlong, hcheck⟩ | ⟨hne, hshort, hcheck⟩
  · have hnone : ¬Grammatical [] :=
      fun h => absurd (isAddress_iff_grammatical.mpr h) (by decide)
    refine ⟨?_, ?_, ?_, ?_, hmatched, hkept⟩ <;> simp [hcheck, hnone]
  · have hnot : ¬email.utf8ByteSize ≤ 254 := Nat.not_le.mpr hlong
    refine ⟨?_, ?_, ?_, ?_, hmatched, hkept⟩ <;> simp [hcheck, hne, hlong, hnot]
  · have hnot : ¬254 < email.utf8ByteSize := Nat.not_lt.mpr hshort
    by_cases haddress : Grammatical email.toList
    · rw [hgrammar.mpr haddress] at hcheck
      refine ⟨?_, ?_, ?_, ?_, hmatched, hkept⟩ <;> simp [hcheck, haddress, hne, hshort, hnot]
    · rw [Bool.eq_false_iff.mpr (mt hgrammar.mp haddress)] at hcheck
      refine ⟨?_, ?_, ?_, ?_, hmatched, hkept⟩ <;> simp [hcheck, haddress, hne, hshort, hnot]

/-- A domain may have several dots, a host may begin with one, and a line break may not follow. -/
example : validate "a.b+c@..d.e-f.org" = .ok () ∧ validate "a@.org" = .error .emailMalformed ∧
    validate "a@d.org\n" = .error .emailMalformed := by
  decide +kernel

end Roster.Email
