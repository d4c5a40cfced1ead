import Mathlib.Algebra.Order.Floor.Div
import Mathlib.Data.Nat.ModEq
import Roster.Token.Basic

/-!
# When tokens collide

The text of a token tells its bytes, and a byte of the sequence source tells one byte of the
counter. So two tokens of that source are the same exactly if they are of one length and their
counters agree in as many low bytes as were drawn, eight at most.

* `Token.Spells`, `Token.encode_spells` — which characters a token has, and how many;
* `Token.encode_injective` — different bytes have different texts;
* `RandomSource.counterByte`, `RandomSource.modEq_pow_iff` — a counter modulo a power of 256 is
  told by its low bytes;
* `RandomSource.sequenceFill_eq_iff` — when two fills of the sequence source are the same;
* `RandomSource.draws`, `RandomSource.getElem?_draws` — the tokens that one source gives, one after
  another;
* `RandomSource.sequence_collides_iff_wraps` — when two of its tokens are the same.
-/

namespace Roster

namespace Token

/-! ## The text of bytes -/

/-- Letters and digits of ASCII, the hyphen and the underscore. -/
def isUrlSafe (c : Char) : Bool :=
  c.isAlphanum || c == '-' || c == '_'

/-- A text of the length that so many bytes take, in URL-safe characters. -/
structure Spells (text : String) (bytes : Nat) : Prop where
  chars : ∀ c ∈ text.toList, isUrlSafe c = true
  length : text.length = 4 * bytes ⌈/⌉ 3

theorem length_alphabet : alphabet.length = 64 := by decide +kernel

theorem alphabet_nodup : alphabet.Nodup := by decide +kernel

theorem alphabet_urlSafe : alphabet.all isUrlSafe = true := by decide +kernel

theorem getElem?_alphabet (bits : Nat) : alphabet[bits % 64]? = some (sextet bits) := by
  have hlt : bits % 64 < alphabet.length := length_alphabet ▸ Nat.mod_lt bits (by decide)
  rw [sextet, List.getD_eq_getElem?_getD, List.getElem?_eq_getElem hlt, Option.getD_some]

theorem sextet_urlSafe (bits : Nat) : isUrlSafe (sextet bits) = true :=
  List.all_eq_true.mp alphabet_urlSafe _ (List.mem_of_getElem? (getElem?_alphabet bits))

/-- A character tells its six bits. -/
theorem sextet_inj {m n : Nat} : sextet m = sextet n ↔ m % 64 = n % 64 := by
  constructor
  · intro h
    have hsame : alphabet[m % 64]? = alphabet[n % 64]? := by
      rw [getElem?_alphabet, getElem?_alphabet, h]
    have hlt : m % 64 < alphabet.length := length_alphabet ▸ Nat.mod_lt m (by decide)
    exact (List.getElem?_inj hlt alphabet_nodup).mp hsame
  · intro h
    rw [sextet, h, sextet]

theorem encode_urlSafe (bytes : List UInt8) : ∀ c ∈ encode bytes, isUrlSafe c = true := by
  induction bytes using encode.induct with
  | case1 a b c rest ih => simpa [encode, sextet_urlSafe] using ih
  | case2 a b => simp [encode, sextet_urlSafe]
  | case3 a => simp [encode, sextet_urlSafe]
  | case4 => simp [encode]

theorem length_encode (bytes : List UInt8) : (encode bytes).length = textLength bytes.length := by
  induction bytes using encode.induct with
  | case1 a b c rest ih =>
    simp only [encode, List.length_cons, ih, textLength]
    omega
  | case2 a b => simp [encode, textLength]
  | case3 a => simp [encode, textLength]
  | case4 => rfl

theorem encode_spells (bytes : List UInt8) :
    Spells (String.ofList (encode bytes)) bytes.length where
  chars := by
    rw [String.toList_ofList]
    exact encode_urlSafe bytes
  length := by
    rw [String.length_ofList, length_encode, textLength, Nat.ceilDiv_eq_add_pred_div]
    rfl

/-- Four characters tell three bytes. -/
theorem bytes_eq_of_sextets {a b c a' b' c' : UInt8}
    (h₁ : a.toNat / 4 % 64 = a'.toNat / 4 % 64)
    (h₂ : (a.toNat * 16 + b.toNat / 16) % 64 = (a'.toNat * 16 + b'.toNat / 16) % 64)
    (h₃ : (b.toNat * 4 + c.toNat / 64) % 64 = (b'.toNat * 4 + c'.toNat / 64) % 64)
    (h₄ : c.toNat % 64 = c'.toNat % 64) : a = a' ∧ b = b' ∧ c = c' := by
  have ha := a.toNat_lt
  have ha' := a'.toNat_lt
  have hb := b.toNat_lt
  have hb' := b'.toNat_lt
  have hc := c.toNat_lt
  have hc' := c'.toNat_lt
  refine ⟨UInt8.toNat_inj.mp ?_, UInt8.toNat_inj.mp ?_, UInt8.toNat_inj.mp ?_⟩ <;> omega

/-- Different bytes have different texts. -/
theorem encode_injective : Function.Injective encode := by
  intro bytes
  induction bytes using encode.induct with
  | case1 a b c rest ih =>
    intro other h
    match other with
    | a' :: b' :: c' :: rest' =>
      simp only [encode, List.cons.injEq, sextet_inj] at h
      obtain ⟨h₁, h₂, h₃, h₄, hrest⟩ := h
      obtain ⟨rfl, rfl, rfl⟩ := bytes_eq_of_sextets h₁ h₂ h₃ h₄
      rw [ih hrest]
    | [_, _] | [_] | [] => simp [encode] at h
  | case2 a b =>
    intro other h
    match other with
    | [a', b'] =>
      simp only [encode, List.cons.injEq, sextet_inj, and_true] at h
      obtain ⟨h₁, h₂, h₃⟩ := h
      -- the third byte of the group is zero
      obtain ⟨rfl, rfl, -⟩ := @bytes_eq_of_sextets a b 0 a' b' 0 h₁ h₂ h₃ rfl
      rfl
    | _ :: _ :: _ :: _ | [_] | [] => simp [encode] at h
  | case3 a =>
    intro other h
    match other with
    | [a'] =>
      simp only [encode, List.cons.injEq, sextet_inj, and_true] at h
      obtain ⟨h₁, h₂⟩ := h
      obtain ⟨rfl, -, -⟩ := @bytes_eq_of_sextets a 0 0 a' 0 0 h₁ h₂ rfl rfl
      rfl
    | _ :: _ :: _ :: _ | [_, _] | [] => simp [encode] at h
  | case4 =>
    intro other h
    match other with
    | [] => rfl
    | _ :: _ :: _ :: _ | [_, _] | [_] => simp [encode] at h

end Token

namespace RandomSource

/-! ## The bytes of a counter -/

/-- Byte `j` of a counter, the lowest first. -/
def counterByte (counter j : Nat) : Nat :=
  counter / 256 ^ j % 256

variable {a b n m k : Nat}

/-- A counter modulo a power of 256 is told by that many of its bytes. -/
theorem modEq_pow_iff : a ≡ b [MOD 256 ^ k] ↔ ∀ j < k, counterByte a j = counterByte b j := by
  induction k with
  | zero => simp [Nat.modEq_one]
  | succ k ih =>
    rw [Nat.forall_lt_succ_right, ← ih, Nat.ModEq, Nat.ModEq, Nat.mod_pow_succ, Nat.mod_pow_succ,
      counterByte, counterByte]
    constructor
    · intro h
      have hlow : a % 256 ^ k = b % 256 ^ k := by
        have hmod := congrArg (· % 256 ^ k) h
        simpa only [Nat.add_mul_mod_self_left, Nat.mod_mod] using hmod
      rw [hlow] at h
      exact ⟨hlow, Nat.eq_of_mul_eq_mul_left (Nat.pow_pos (by decide)) (Nat.add_left_cancel h)⟩
    · rintro ⟨hlow, hbyte⟩
      rw [hlow, hbyte]

/-- A byte of a fill tells one byte of the counter, whatever was added to it for its place. -/
theorem sequenceByte_eq_iff (i : Nat) :
    sequenceByte a i = sequenceByte b i ↔ counterByte a (i % 8) = counterByte b (i % 8) := by
  have hbyte : ∀ counter, (sequenceByte counter i).toNat =
      (counter / 256 ^ (i % 8) + i) % 256 := by
    intro counter
    rw [sequenceByte, UInt8.toNat_ofNat', Nat.shiftRight_eq_div_pow, Nat.pow_mul]
  rw [← UInt8.toNat_inj, hbyte, hbyte, counterByte, counterByte]
  omega

theorem length_sequenceFill (counter length : Nat) :
    (sequenceFill counter length).length = length := by
  rw [sequenceFill, List.length_map, List.length_range]

/-- Two fills are the same if they are of one length and their counters agree in as many bytes as
there are in the fill and in the counter. -/
theorem sequenceFill_eq_iff :
    sequenceFill a n = sequenceFill b m ↔ n = m ∧ a ≡ b [MOD 256 ^ min n 8] := by
  have hsame : sequenceFill a n = sequenceFill b n ↔ a ≡ b [MOD 256 ^ min n 8] := by
    rw [sequenceFill, sequenceFill, List.map_inj_left, modEq_pow_iff]
    constructor
    · intro h j hj
      obtain ⟨hn, h8⟩ := Nat.lt_min.mp hj
      have hbyte := (sequenceByte_eq_iff j).mp (h j (List.mem_range.mpr hn))
      rwa [Nat.mod_eq_of_lt h8] at hbyte
    · intro h i hi
      -- the bytes beyond the eighth are those of the counter over again
      have hlow : i % 8 < min n 8 := by
        have hn := List.mem_range.mp hi
        omega
      exact (sequenceByte_eq_iff i).mpr (h (i % 8) hlow)
  constructor
  · intro h
    have hlength := congrArg List.length h
    rw [length_sequenceFill, length_sequenceFill] at hlength
    subst hlength
    exact ⟨rfl, hsame.mp h⟩
  · rintro ⟨rfl, h⟩
    exact hsame.mpr h

/-- A counter of 64 bits that wraps gives the same fills. -/
theorem sequenceFill_wraps (counter length : Nat) :
    sequenceFill (counter % 2 ^ 64) length = sequenceFill counter length := by
  refine sequenceFill_eq_iff.mpr ⟨rfl, (Nat.mod_modEq counter _).of_dvd ?_⟩
  exact Nat.pow_dvd_pow 256 (Nat.min_le_right length 8)

/-! ## Tokens -/

/-- The sequence source when its counter is at the given value. -/
def sequenceAt (counter : UInt64) : RandomSource :=
  { sequence with drawn := counter.toNat }

/-- The tokens that a source gives for the lengths asked for, one after another. -/
def draws (source : RandomSource) : List Nat → List String
  | [] => []
  | length :: rest => (source.token length).1 :: (source.token length).2.draws rest

theorem token_fst (source : RandomSource) (length : Nat) :
    (source.token length).1 = String.ofList (Token.encode (source.fill source.drawn length)) := rfl

/-- The tokens of a source are those of its fills in order. -/
theorem getElem?_draws (source : RandomSource) (lengths : List Nat) (i : Nat) :
    (source.draws lengths)[i]? = lengths[i]?.map fun length =>
      String.ofList (Token.encode (source.fill (source.drawn + i) length)) := by
  induction lengths generalizing source i with
  | nil => rfl
  | cons length rest ih =>
    cases i with
    | zero => rfl
    | succ i =>
      rw [draws, List.getElem?_cons_succ, List.getElem?_cons_succ, ih]
      show rest[i]?.map (fun length =>
        String.ofList (Token.encode (source.fill (source.drawn + 1 + i) length))) = _
      rw [Nat.add_assoc, Nat.add_comm 1]

/-- The tokens that a new sequence source gives are those of the counters from zero. -/
theorem getElem?_draws_sequence (lengths : List Nat) (i : Nat) :
    (sequence.draws lengths)[i]? =
      lengths[i]?.map fun length => ((sequenceAt (.ofNat i)).token length).1 := by
  have htoken : ∀ length, ((sequenceAt (.ofNat i)).token length).1 =
      String.ofList (Token.encode (sequenceFill (0 + i) length)) := by
    intro length
    show String.ofList (Token.encode (sequenceFill (UInt64.ofNat i).toNat length)) = _
    rw [UInt64.toNat_ofNat', sequenceFill_wraps, Nat.zero_add]
  rw [getElem?_draws]
  simp only [htoken]
  rfl

/-- Two tokens of the sequence source are the same exactly if they are of one length and their
counters agree modulo 256 to the power of that length, or of eight if it is longer. A token of `n`
bytes has `4n/3` characters, rounded up, and all of them are URL-safe; so it is with any source.
What a new source gives, one token after another, are the tokens of the counters from zero. -/
theorem sequence_collides_iff_wraps (n m : Nat) (a b : UInt64) :
    (((sequenceAt a).token n).1 = ((sequenceAt b).token m).1 ↔
      n = m ∧ a.toNat ≡ b.toNat [MOD 256 ^ min n 8]) ∧
    Token.Spells ((sequenceAt a).token n).1 n ∧
    (∀ source : RandomSource, Token.Spells (source.token n).1 (source.next n).1.length) ∧
    ∀ (lengths : List Nat) (i : Nat), (sequence.draws lengths)[i]? =
      lengths[i]?.map fun length => ((sequenceAt (.ofNat i)).token length).1 := by
  have hspells : ∀ source : RandomSource,
      Token.Spells (source.token n).1 (source.next n).1.length :=
    fun source => Token.encode_spells (source.next n).1
  refine ⟨?_, ?_, hspells, getElem?_draws_sequence⟩
  · rw [token_fst, token_fst, String.ofList_inj, Token.encode_injective.eq_iff]
    exact sequenceFill_eq_iff
  · have hlength : ((sequenceAt a).next n).1.length = n := length_sequenceFill a.toNat n
    have hsequence := hspells (sequenceAt a)
    rwa [hlength] at hsequence

/-- With one byte drawn, the token after 256 others is the first again. -/
example : ((sequenceAt 0).token 1).1 = ((sequenceAt 256).token 1).1 ∧
    ((sequenceAt 0).token 2).1 ≠ ((sequenceAt 256).token 2).1 := by
  decide +kernel

end RandomSource

end Roster
