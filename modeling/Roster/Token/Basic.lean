import Roster.Text.Hex
import Roster.Token.Sha256

/-!
# Invitation tokens

A token is a run of random bytes in the URL-safe base64 alphabet, without
padding. Only its digest is stored.

* `Token.encode` — the text of a run of bytes;
* `Token.hash` — the stored digest of a token text;
* `RandomSource` — where the bytes come from: `sequence` gives a distinct,
  reproducible fill each time, `repeating` gives the same bytes every time;
* `RandomSource.token` — draws one token.

A `Secret` holds a token for delivery and hides it wherever it is printed.
-/

namespace Roster

namespace Token

/-- The sixty-four characters of the URL-safe alphabet. -/
def alphabet : List Char :=
  "ABCDEFGHIJKLMNOPQRSTUVWXYZabcdefghijklmnopqrstuvwxyz0123456789-_".toList

/-- The character of six bits. -/
def sextet (bits : Nat) : Char :=
  alphabet.getD (bits % 64) 'A'

/-- Three bytes become four characters; a rest of one or two bytes becomes two
or three. -/
def encode : List UInt8 → List Char
  | a :: b :: c :: rest =>
    sextet (a.toNat / 4) :: sextet (a.toNat * 16 + b.toNat / 16) ::
      sextet (b.toNat * 4 + c.toNat / 64) :: sextet c.toNat :: encode rest
  | [a, b] => [sextet (a.toNat / 4), sextet (a.toNat * 16 + b.toNat / 16), sextet (b.toNat * 4)]
  | [a] => [sextet (a.toNat / 4), sextet (a.toNat * 16)]
  | [] => []

/-- The number of characters of a token of so many bytes. -/
def textLength (bytes : Nat) : Nat :=
  (4 * bytes + 2) / 3

/-- The digest under which a token is stored, in hexadecimal. -/
def hash (token : String) : String :=
  String.ofList (Text.hex (Sha256.digest token.toUTF8.toList))

end Token

/-! ## Random bytes -/

/-- A source of random bytes: `fill k n` is the `k`-th fill, of `n` bytes, and
`drawn` counts the fills so far. -/
structure RandomSource where
  fill : Nat → Nat → List UInt8
  drawn : Nat

namespace RandomSource

/-- Byte `i` of a fill of the sequence source: the little-endian counter bytes
in turn, each shifted by its position. -/
def sequenceByte (counter i : Nat) : UInt8 :=
  UInt8.ofNat ((counter >>> (8 * (i % 8))) + i)

/-- The fill of the sequence source at a counter. -/
def sequenceFill (counter length : Nat) : List UInt8 :=
  (List.range length).map (sequenceByte counter)

/-- Distinct, reproducible fills derived from a counter. -/
def sequence : RandomSource := ⟨sequenceFill, 0⟩

/-- The given bytes over and over, from the start at every fill; zeros if none
are given. -/
def repeating (bytes : List UInt8) : RandomSource :=
  ⟨fun _ length => (List.range length).map fun i => bytes.getD (i % bytes.length) 0, 0⟩

/-- The next fill, and the source after it. -/
def next (source : RandomSource) (length : Nat) : List UInt8 × RandomSource :=
  (source.fill source.drawn length, { source with drawn := source.drawn + 1 })

/-- Draws a token of so many bytes. -/
def token (source : RandomSource) (length : Nat) : String × RandomSource :=
  let (bytes, source) := source.next length
  (String.ofList (Token.encode bytes), source)

end RandomSource

/-! ## Secrets -/

/-- A plaintext that is hidden wherever it is printed. -/
structure Secret where
  plain : String
deriving DecidableEq

namespace Secret

/-- What is printed in place of the secret. -/
def shown (_ : Secret) : String :=
  "[REDACTED]"

/-- What is printed for inspection. -/
def inspected (secret : Secret) : String :=
  "SecretString(" ++ secret.shown ++ ")"

/-- Whether there is no text to hide. -/
def isEmpty (secret : Secret) : Bool :=
  secret.plain == ""

end Secret

end Roster
