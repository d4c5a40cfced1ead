import Roster.Text.Blank
import Roster.Text.Decimal
import Roster.Time.Calendar
import Roster.Time.Instant

/-!
# Written instants

Instants are written as in RFC 3339, in UTC: date, time of day, a fraction of
none, three, six or nine digits, and a zone.

* `Instant.text` — the form with zone `Z`, used in answers;
* `Instant.storedText` — the form with zone `+00:00`, under which a database
  keeps and compares instants;
* `Instant.ofText?` — reads any zone and fraction, and converts to UTC.

Years from 0 to 9999 have four digits; other years have a sign and at least
four digits. A leap second is second 60 of its minute.
-/

namespace Roster

open Text (fixed atLeast isBlank)

/-! ## Writing -/

/-- A year: four digits, or a sign and at least four. -/
def yearText (year : Int) : List Char :=
  if 0 ≤ year ∧ year ≤ 9999 then fixed 4 year.toNat
  else (if year < 0 then '-' else '+') :: atLeast 4 year.natAbs

/-- The fraction of a second: as many groups of three digits as it needs. -/
def fractionText (nanos : Nat) : List Char :=
  if nanos = 0 then []
  else if nanos % 1000000 = 0 then '.' :: fixed 3 (nanos / 1000000)
  else if nanos % 1000 = 0 then '.' :: fixed 6 (nanos / 1000)
  else '.' :: fixed 9 nanos

/-- A date as year, month and day. -/
def Date.text (date : Date) : List Char :=
  yearText date.year ++ '-' :: fixed 2 date.month ++ '-' :: fixed 2 date.day

/-- A second of the day as hours, minutes and seconds, with the leap seconds
that have passed in its minute. -/
def clockText (second leaps : Nat) : List Char :=
  fixed 2 (second / 3600) ++ ':' :: fixed 2 (second / 60 % 60) ++
    ':' :: fixed 2 (second % 60 + leaps)

namespace Instant

/-- The UTC date. -/
def date (t : Instant) : Date :=
  .ofDayNumber (t.second / 86400 + epochDay)

/-- The second of the UTC day. -/
def secondOfDay (t : Instant) : Nat :=
  (t.second % 86400).toNat

/-- Everything but the zone. -/
def localText (t : Instant) : List Char :=
  t.date.text ++ 'T' :: clockText t.secondOfDay (t.nano / 1000000000) ++
    fractionText (t.nano % 1000000000)

/-- The form shown in answers. -/
def text (t : Instant) : String :=
  String.ofList (t.localText ++ ['Z'])

/-- The form kept by a database. -/
def storedText (t : Instant) : List Char :=
  t.localText ++ ['+', '0', '0', ':', '0', '0']

end Instant

/-! ## Reading -/

/-- The number written by decimal digits. -/
def digitsValue (digits : List Char) : Nat :=
  digits.foldl (fun value c => 10 * value + (c.toNat - 48)) 0

/-- Reads a number of one to `width` digits, after any blanks. -/
def readNumber? (width : Nat) (text : List Char) : Option (Nat × List Char) :=
  let text := text.dropWhile isBlank
  let digits := (text.take width).takeWhile Char.isDigit
  if digits = [] then none else some (digitsValue digits, text.drop digits.length)

/-- Reads one given character, after any blanks. -/
def readMark? (mark : Char) (text : List Char) : Option (List Char) :=
  match text.dropWhile isBlank with
  | c :: rest => if c = mark then some rest else none
  | [] => none

/-- Reads a year: up to four digits, or a sign and any number of digits. -/
def readYear? (text : List Char) : Option (Int × List Char) :=
  let signed (rest : List Char) : Option (Nat × List Char) :=
    let digits := rest.takeWhile Char.isDigit
    if digits = [] then none else some (digitsValue digits, rest.drop digits.length)
  match text.dropWhile isBlank with
  | '-' :: rest => (signed rest).map fun (value, rest) => (-(value : Int), rest)
  | '+' :: rest => (signed rest).map fun (value, rest) => ((value : Int), rest)
  | rest => (readNumber? 4 rest).map fun (value, rest) => ((value : Int), rest)

/-- Reads an optional fraction as nanoseconds; digits past the ninth are
dropped. -/
def readFraction? (text : List Char) : Option (Nat × List Char) :=
  match text with
  | '.' :: rest =>
    let digits := rest.takeWhile Char.isDigit
    if digits = [] then none
    else
      let kept := digits.take 9
      some (digitsValue kept * Nat.pow 10 (9 - kept.length), rest.drop digits.length)
  | rest => some (0, rest)

/-- Reads a zone as seconds east of UTC: `Z`, `UTC`, or a signed offset in
hours and minutes. -/
def readZone? (text : List Char) : Option (Int × List Char) :=
  let offset (sign : Int) (text : List Char) : Option (Int × List Char) :=
    match text with
    | h₁ :: h₂ :: rest =>
      match rest.dropWhile fun c => c == ':' || isBlank c with
      | m₁ :: m₂ :: rest =>
        let hours := digitsValue [h₁, h₂]
        let minutes := digitsValue [m₁, m₂]
        if [h₁, h₂, m₁, m₂].all Char.isDigit ∧ hours ≤ 23 ∧ minutes ≤ 59 then
          some (sign * ((hours * 3600 + minutes * 60 : Nat) : Int), rest)
        else none
      | _ => none
    | _ => none
  match text.dropWhile isBlank with
  | '+' :: rest => offset 1 rest
  | '-' :: rest => offset (-1) rest
  | '\u2212' :: rest => offset (-1) rest
  | text =>
    if (text.take 3).map Char.toLower = ['u', 't', 'c'] then some (0, text.drop 3)
    else match text with
      | c :: rest => if c = 'Z' ∨ c = 'z' then some (0, rest) else none
      | [] => none

/-- Reads the separator between date and time. -/
def readSeparator? : List Char → Option (List Char)
  | c :: rest => if c = 'T' ∨ c = 't' ∨ c = ' ' then some rest else none
  | [] => none

/-- The second of a date and time of day, if the calendar and the clock have
them. -/
def civilSecond? (date : Date) (hour minute second : Nat) : Option Int :=
  if date.isValid ∧ hour ≤ 23 ∧ minute ≤ 59 ∧ second ≤ 59 then
    some ((date.dayNumber - epochDay) * 86400 + (hour * 3600 + minute * 60 + second : Nat))
  else none

/-- The second and the nanoseconds of what a clock shows, where second 60 is a
leap second after second 59. -/
def unfoldLeap (second nanos : Nat) : Nat × Nat :=
  if second = 60 then (59, 1000000000 + nanos) else (second, nanos)

/-- The instant that a text writes. -/
def Instant.ofText? (text : List Char) : Option Instant := do
  let (year, text) ← readYear? text
  let text ← readMark? '-' text
  let (month, text) ← readNumber? 2 text
  let text ← readMark? '-' text
  let (day, text) ← readNumber? 2 text
  let text ← readSeparator? text
  let (hour, text) ← readNumber? 2 text
  let text ← readMark? ':' text
  let (minute, text) ← readNumber? 2 text
  let text ← readMark? ':' text
  let (second, text) ← readNumber? 2 text
  let (fraction, text) ← readFraction? text
  let (zone, text) ← readZone? text
  guard (text.all isBlank)
  -- the time must be in range both where it was written and in UTC
  let (second, nano) := unfoldLeap second fraction
  let written ← civilSecond? ⟨year, month, day⟩ hour minute second
  let _ ← at? written nano
  at? (written - zone) nano

end Roster
