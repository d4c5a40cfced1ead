/-!
# Hexadecimal text of bytes

`hex` writes each byte as two lowercase digits, the high one first.
-/

namespace Roster.Text

/-- The hexadecimal digit of a number below sixteen. -/
def hexDigit (n : Nat) : Char :=
  if n < 10 then Char.ofNat (48 + n) else Char.ofNat (87 + n)

/-- Two digits for each byte. -/
def hex : List UInt8 → List Char
  | [] => []
  | byte :: rest =>
    hexDigit (byte.toNat / 16) :: hexDigit (byte.toNat % 16) :: hex rest

end Roster.Text
