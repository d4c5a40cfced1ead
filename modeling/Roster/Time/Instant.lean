/-!
# Instants

An `Instant` is a point of UTC time at nanosecond precision: a second, counted
from 1970-01-01T00:00:00Z, and the nanoseconds since it began. Its range is the
years -262143 to 262142.

* The count of seconds leaves leap seconds out. An instant inside one belongs
  to the last second of its minute, with a thousand million nanoseconds or
  more; the type allows that for no other second.
* Instants are ordered by second and then by nanoseconds, which puts a leap
  second between its neighbours.
* `Instant.at?` — the instant of a second and nanoseconds, if there is one;
  `Instant.ofNanos?` — the same from one count of nanoseconds.
* `Instant.add?` — moving by a duration, which may leave the range.
-/

namespace Roster

/-- The nanoseconds of one second. -/
def nanosPerSecond : Int := 1000000000

/-- A length of time in nanoseconds, of either sign. -/
abbrev Duration := Int

/-- A duration of whole seconds and nanoseconds. -/
def Duration.ofSeconds (seconds : Int) (nanos : Int) : Duration :=
  seconds * nanosPerSecond + nanos

/-- A duration of whole days. -/
def Duration.ofDays (days : Int) : Duration :=
  Duration.ofSeconds (days * 86400) 0

/-- The first second, -262143-01-01T00:00:00Z. -/
def Instant.firstSecond : Int := -8334601228800

/-- The last second, 262142-12-31T23:59:59Z. -/
def Instant.lastSecond : Int := 8210266876799

/-- A point in time. -/
@[ext]
structure Instant where
  second : Int
  nano : Nat
  inRange : Instant.firstSecond ≤ second ∧ second ≤ Instant.lastSecond
  inSecond : nano < 1000000000 ∨ nano < 2000000000 ∧ second % 60 = 59
deriving DecidableEq

namespace Instant

/-- The instant of a second and nanoseconds, if there is one. -/
def at? (second : Int) (nano : Nat) : Option Instant :=
  if h : (firstSecond ≤ second ∧ second ≤ lastSecond) ∧
      (nano < 1000000000 ∨ nano < 2000000000 ∧ second % 60 = 59) then
    some ⟨second, nano, h.1, h.2⟩
  else none

/-- The instant of a count of nanoseconds, outside leap seconds. -/
def ofNanos? (nanos : Int) : Option Instant :=
  at? (nanos / nanosPerSecond) (nanos % nanosPerSecond).toNat

/-- The start of 1970. -/
def epoch : Instant := ⟨0, 0, by decide, by decide⟩

/-- Whether the instant lies inside a leap second. -/
def isLeap (t : Instant) : Bool :=
  1000000000 ≤ t.nano

theorem at?_self (t : Instant) : at? t.second t.nano = some t := by
  simp [at?, t.inRange, t.inSecond]

/-! ## Order -/

instance : LE Instant := ⟨fun a b => a.second < b.second ∨ a.second = b.second ∧ a.nano ≤ b.nano⟩

instance : LT Instant := ⟨fun a b => a.second < b.second ∨ a.second = b.second ∧ a.nano < b.nano⟩

theorem le_iff {a b : Instant} :
    a ≤ b ↔ a.second < b.second ∨ a.second = b.second ∧ a.nano ≤ b.nano := Iff.rfl

theorem lt_iff {a b : Instant} :
    a < b ↔ a.second < b.second ∨ a.second = b.second ∧ a.nano < b.nano := Iff.rfl

instance (a b : Instant) : Decidable (a ≤ b) := decidable_of_iff _ le_iff.symm

instance (a b : Instant) : Decidable (a < b) := decidable_of_iff _ lt_iff.symm

theorem not_le {a b : Instant} : ¬ a ≤ b ↔ b < a := by
  rw [le_iff, lt_iff]
  omega

theorem not_lt {a b : Instant} : ¬ a < b ↔ b ≤ a := by
  rw [le_iff, lt_iff]
  omega

protected theorem le_refl (a : Instant) : a ≤ a :=
  .inr ⟨rfl, Nat.le_refl a.nano⟩

theorem le_trans {a b c : Instant} (hab : a ≤ b) (hbc : b ≤ c) : a ≤ c := by
  rw [le_iff] at hab hbc ⊢
  omega

protected theorem lt_of_lt_of_le {a b c : Instant} (hab : a < b) (hbc : b ≤ c) : a < c := by
  rw [lt_iff] at hab ⊢
  rw [le_iff] at hbc
  omega

protected theorem lt_trans {a b c : Instant} (hab : a < b) (hbc : b < c) : a < c := by
  rw [lt_iff] at hab hbc ⊢
  omega

theorem le_antisymm {a b : Instant} (hab : a ≤ b) (hba : b ≤ a) : a = b := by
  rw [le_iff] at hab hba
  exact Instant.ext (by omega) (by omega)

/-! ## Moving -/

/-- The instant a duration later, if it is in range. From inside a leap second
the rest of it counts like any other time; a leap second that lies on the way
does not. -/
def add? (t : Instant) (duration : Duration) : Option Instant :=
  let moved := t.nano + duration
  if !t.isLeap || moved < nanosPerSecond then ofNanos? (t.second * nanosPerSecond + moved)
  else if moved < 2 * nanosPerSecond then at? t.second moved.toNat
  else ofNanos? ((t.second - 1) * nanosPerSecond + moved)

end Instant

end Roster
