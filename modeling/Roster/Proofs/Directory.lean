import Roster.Proofs.Input
import Roster.Proofs.Invariant
import Roster.Proofs.Text.Lowercase

/-!
# Look-ups by address

Addresses are normalized when a user is stored, when an invitation is sent, and once more at
every look-up. Normalizing a second time changes nothing, so it does not matter how often it was
done, nor in which form an address was typed.

* `Email.IsNormal`, `Email.normalize_eq_self_iff` — the normal addresses are those that normalizing
  leaves alone;
* `Tables.Lists`, `Tables.lists_invariant` — the directory knows an address, and never forgets it;
* `Tables.findUserByEmail_of_lists` — a look-up in any form finds a user with the address;
* `lookups_ignore_form` — all of it, for every address, at once after the user was inserted and
  after whatever happens then.
-/

namespace Roster

namespace Email

/-! ## Normal addresses -/

/-- An address in lowercase, without blanks around it. -/
structure IsNormal (email : String) : Prop where
  lower : ∀ c ∈ email.toList, Text.lowerChar c = [c]
  first : ∀ c ∈ email.toList.head?, Text.isBlank c = false
  last : ∀ c ∈ email.toList.getLast?, Text.isBlank c = false

variable {email : String}

theorem isNormal_normalize (email : String) : IsNormal (normalize email) where
  lower := by
    rw [normalize, String.toList_ofList]
    exact Text.lowercase_eq_self_iff.mp (Text.lowercase_lowercase _)
  first := by
    rw [normalize, String.toList_ofList]
    exact Text.lowerFrom_head [] fun _ hc => Text.head_trim hc
  last := by
    rw [normalize, String.toList_ofList]
    exact Text.lowerFrom_getLast [] fun _ hc => Text.getLast_trim hc

/-- Normalizing leaves the normal addresses alone, and no others. -/
theorem normalize_eq_self_iff : normalize email = email ↔ IsNormal email := by
  constructor
  · intro h
    rw [← h]
    exact isNormal_normalize email
  · intro h
    rw [normalize, Text.trim_eq h.first h.last, Text.lowercase_eq_self_iff.mpr h.lower,
      String.ofList_toList]

theorem normalize_normalize (email : String) : normalize (normalize email) = normalize email :=
  normalize_eq_self_iff.mpr (isNormal_normalize email)

end Email

/-! ## The directory -/

namespace Tables

/-- Some user has the address. -/
def Lists (address : String) (s : Tables) : Prop :=
  address ∈ s.users.map (·.email)

variable {s : Tables} {email : String}

/-- The directory forgets no address, whatever happens. -/
theorem lists_invariant (address : String) : Invariant (Lists address) where
  perform := by
    intro α call reply s s' hperform h
    rw [Lists, (perform_frame hperform).1]
    exact h
  insertUser := by
    intro s email name h
    rw [Lists, insertUser, List.map_append]
    exact List.mem_append_left _ h
  failSettling := fun _ _ h => h

theorem lists_insertUser (s : Tables) (email name : String) :
    (s.insertUser email name).2.Lists (Email.normalize email) := by
  rw [Lists, insertUser, List.map_append]
  exact List.mem_append_right _ List.mem_cons_self

/-- A look-up depends on the normal form of the address only. -/
theorem findUserByEmail_congr {left right : String}
    (h : Email.normalize left = Email.normalize right) (s : Tables) :
    s.findUserByEmail left = s.findUserByEmail right := by
  rw [findUserByEmail, h, findUserByEmail]

/-- If some user has the normal form of an address, a look-up gives one who has it. -/
theorem findUserByEmail_of_lists (h : s.Lists (Email.normalize email)) :
    ∃ user, s.findUserByEmail email = some user ∧ user.email = Email.normalize email := by
  obtain ⟨user, huser, haddress⟩ := List.mem_map.mp h
  cases hfound : s.findUserByEmail email with
  | none => exact absurd (decide_eq_true haddress) (List.find?_eq_none.mp hfound user huser)
  | some found =>
    have hfits := List.find?_some hfound
    exact ⟨found, rfl, of_decide_eq_true hfits⟩

end Tables

/-- Normalizing an address again changes nothing, and no look-up can tell whether it was done.
Once a user was inserted, a look-up by any text with the same normal form finds a user, who has
the normal form as address; it still does after anything that happens to the store, however many
calls run on it at the same time. -/
theorem lookups_ignore_form (email : String) :
    Email.normalize (Email.normalize email) = Email.normalize email ∧
    (∀ s : Tables, s.findUserByEmail (Email.normalize email) = s.findUserByEmail email) ∧
    ∀ other : String, Email.normalize other = Email.normalize email →
      (∀ (s : Tables) (name : String), ∃ user,
        (s.insertUser email name).2.findUserByEmail other = some user ∧
          user.email = Email.normalize email) ∧
      ∀ (pool : Pool) (name : String) (events : List Event), ∃ user,
        ((pool.step (.insertUser email name)).run events).world.store.findUserByEmail other =
            some user ∧
          user.email = Email.normalize email := by
  have htwice := Email.normalize_normalize email
  refine ⟨htwice, fun s => Tables.findUserByEmail_congr htwice s, ?_⟩
  intro other hother
  rw [← hother]
  constructor
  · intro s name
    refine Tables.findUserByEmail_of_lists ?_
    rw [hother]
    exact s.lists_insertUser email name
  · intro pool name events
    refine Tables.findUserByEmail_of_lists ?_
    rw [hother]
    exact (Tables.lists_invariant _).run events (pool.world.store.lists_insertUser email name)

/-- The capital sigma at the end of a word becomes the final form, which a look-up may use. -/
theorem lookups_ignore_form_of_final_sigma :
    Email.normalize "νίκος@example.org" = Email.normalize " ΝΊΚΟΣ@Example.org " ∧
    ∃ user, (Tables.empty.insertUser " ΝΊΚΟΣ@Example.org " "Nikos").2.findUserByEmail
        "νίκος@example.org" = some user ∧
      user.email = Email.normalize " ΝΊΚΟΣ@Example.org " := by
  have hsame : Email.normalize "νίκος@example.org" = Email.normalize " ΝΊΚΟΣ@Example.org " := by
    decide +kernel
  exact ⟨hsame, ((lookups_ignore_form " ΝΊΚΟΣ@Example.org ").2.2 _ hsame).1 .empty "Nikos"⟩

end Roster
