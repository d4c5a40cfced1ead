import Roster.Proofs.Invite
import Roster.Proofs.Session

/-!
# Inviting who is a member already

Sending an invitation asks the directory for one user with the address and refuses if that user
is a member. The store in memory lets several users have one address, and a look-up gives the
one who was inserted first: a member behind a namesake is invited again.

* `World.addresses_afterAll` — the directory lists the addresses that were inserted, in order;
* `Tables.Shadowed` — a user stands behind another with the same address who is no member;
* `Tables.shadowed_of_lookup` — so does every member that a look-up has missed;
* `World.members_invited_shadowed` — only such a member can be invited again, and nobody whose
  address was inserted once;
* `World.shadowed_member_invited` — a run in which one is.
-/

namespace Roster

/-! ## The directory of a run -/

/-- The normalized address of the user that an episode inserts. -/
def Episode.insertedAddress? : Episode → Option String
  | .insertUser email _ => some (Email.normalize email)
  | _ => none

namespace World

theorem addresses_after (w : World Tables) (episode : Episode) :
    (w.after episode).store.users.map (·.email) =
      w.store.users.map (·.email) ++ episode.insertedAddress?.toList := by
  cases episode with
  | acts config action =>
    have husers := ((action.program config).run_frame w).1
    simp only [after, husers, Episode.insertedAddress?, Option.toList_none, List.append_nil]
  | insertUser email name => exact List.map_append
  | setClock clock => exact (List.append_nil _).symm
  | failSettling fail => exact (List.append_nil _).symm

/-- The directory lists the addresses that were inserted, in order. -/
theorem addresses_afterAll (w : World Tables) (episodes : List Episode) :
    (w.afterAll episodes).store.users.map (·.email) =
      w.store.users.map (·.email) ++ episodes.filterMap Episode.insertedAddress? := by
  induction episodes generalizing w with
  | nil => exact (List.append_nil _).symm
  | cons episode rest ih =>
    show ((w.after episode).afterAll rest).store.users.map (·.email) = _
    rw [ih, addresses_after, List.append_assoc]
    cases hinserted : episode.insertedAddress? with
    | none => rw [List.filterMap_cons_none hinserted, Option.toList_none, List.nil_append]
    | some address => rw [List.filterMap_cons_some hinserted]; rfl

end World

/-! ## What a look-up shows -/

namespace Tables

/-- A user stands behind another with the same address, who is no member of the team. -/
def Shadowed (s : Tables) (team : Int) (user : User) : Prop :=
  ∃ before first after, s.users = before ++ first :: after ∧ user ∈ after ∧
    first.email = user.email ∧ s.isMember team first.id = false

variable {s : Tables} {team : Int} {address : String} {user : User}

/-- If the user whom a look-up gives is no member, a member with the address stands behind that
user. -/
theorem shadowed_of_lookup (haddress : Email.normalize address = address)
    (hlookup : ((s.findUserByEmail address).any fun user => s.isMember team user.id) = false)
    (huser : user ∈ s.users) (hemail : user.email = address)
    (hmember : s.isMember team user.id = true) : s.Shadowed team user := by
  cases hfound : s.findUserByEmail address with
  | none =>
    rw [findUserByEmail, haddress, List.find?_eq_none] at hfound
    exact absurd (decide_eq_true hemail) (hfound user huser)
  | some first =>
    have hother : s.isMember team first.id = false := by
      rwa [hfound, Option.any_some] at hlookup
    rw [findUserByEmail, haddress, List.find?_eq_some_iff_append] at hfound
    obtain ⟨hfirst, before, after, hsplit, hbefore⟩ := hfound
    refine ⟨before, first, after, hsplit, ?_, ?_, hother⟩
    · rw [hsplit, List.mem_append, List.mem_cons] at huser
      rcases huser with hearly | rfl | hlate
      · exact absurd hemail (by simpa using hbefore user hearly)
      · rw [hmember] at hother
        cases hother
      · exact hlate
    · rw [hemail]
      exact of_decide_eq_true hfirst

/-- Of a user behind another the address is in the directory twice. -/
theorem Shadowed.two_le_count (h : s.Shadowed team user) :
    2 ≤ (s.users.map (·.email)).count user.email := by
  obtain ⟨before, first, after, hsplit, huser, hemail, -⟩ := h
  have hlate : 0 < (after.map (·.email)).count user.email :=
    List.count_pos_iff.mpr (List.mem_map_of_mem huser)
  rw [hsplit, List.map_append, List.map_cons, List.count_append, hemail, List.count_cons_self]
  omega

end Tables

/-! ## Runs -/

namespace World

/-- In every run of actions and insertions one after another: when an invitation is sent to an
address, the members who have the address stand behind a user who has it too and is no member. If
the address was inserted once, or never, no member has it. -/
theorem members_invited_shadowed (clock : Instant) (random : RandomSource)
    (episodes : List Episode) (config : Config) (team inviter : Int) (email : String) (role : Role)
    (sent : SentInvitation)
    (h : (((Action.sendInvitation team inviter email role).program config).run
      ((World.mk (Store.empty : Tables) clock random).afterAll episodes)).result = .ok sent) :
    let s := ((World.mk (Store.empty : Tables) clock random).afterAll episodes).store
    (∀ user ∈ s.users, user.email = Email.normalize email → s.isMember team user.id = true →
      s.Shadowed team user) ∧
    ((episodes.filterMap Episode.insertedAddress?).count (Email.normalize email) ≤ 1 →
      ∀ user ∈ s.users, user.email = Email.normalize email → s.isMember team user.id = false) := by
  intro s
  have hproper := afterAll_proper (w := ⟨Store.empty, clock, random⟩) Tables.empty_proper episodes
  have hverdict := sendInvitation_verdict hproper.keyed config team inviter email role
  have hgranted : Obstacle.first (s.inviteObstacles team inviter email role) = none := by
    cases hfirst : Obstacle.first (s.inviteObstacles team inviter email role) with
    | none => rfl
    | some failure =>
      rw [InviteVerdict, hfirst] at hverdict
      exact absurd (h.symm.trans hverdict.1) (by simp)
  obtain ⟨hvalid, hlookup, -⟩ := Tables.inviteObstacles_none hgranted
  have hshadowed : ∀ user ∈ s.users, user.email = Email.normalize email →
      s.isMember team user.id = true → s.Shadowed team user :=
    fun user huser hemail hmember =>
      Tables.shadowed_of_lookup (Email.normalize_eq hvalid) hlookup huser hemail hmember
  refine ⟨hshadowed, ?_⟩
  intro honce user huser hemail
  rw [Bool.eq_false_iff]
  intro hmember
  have htwice := (hshadowed user huser hemail hmember).two_le_count
  have haddresses : s.users.map (·.email) = episodes.filterMap Episode.insertedAddress? :=
    addresses_afterAll ⟨Store.empty, clock, random⟩ episodes
  rw [haddresses, hemail] at htwice
  omega

/-- Two users are inserted under one address, and the second founds a team. -/
def namesakes : List Episode :=
  [.insertUser "ann@example.org" "Ann", .insertUser "Ann@Example.org" "Anna",
    .acts .default (.createTeam ⟨2, "Core", none, .everyone, none⟩)]

/-- The sending of an invitation to her own address. -/
def invitingNamesake : Program SentInvitation :=
  (Action.sendInvitation 1 2 "ann@example.org" .member).program .default

theorem namesakes_run :
    let w := (World.mk (Store.empty : Tables) .epoch .sequence).afterAll namesakes
    (∃ sent, (invitingNamesake.run w).result = .ok sent) ∧
    ∃ user ∈ w.store.users, user.email = Email.normalize "ann@example.org" ∧
      w.store.isMember 1 user.id = true := by
  intro w
  have hdecided : (invitingNamesake.run w).result.isOk = true ∧
      (w.store.users.any fun user => user.email = Email.normalize "ann@example.org" &&
        w.store.isMember 1 user.id) = true := by
    decide +kernel
  obtain ⟨hsent, hmember⟩ := hdecided
  constructor
  · cases hresult : (invitingNamesake.run w).result with
    | ok sent => exact ⟨sent, rfl⟩
    | error failure =>
      rw [hresult] at hsent
      cases hsent
  · obtain ⟨user, huser, h⟩ := List.any_eq_true.mp hmember
    rw [Bool.and_eq_true, decide_eq_true_eq] at h
    exact ⟨user, huser, h⟩

/-- She is invited to the team that she owns. -/
theorem shadowed_member_invited :
    let w := (World.mk (Store.empty : Tables) .epoch .sequence).afterAll namesakes
    (∃ sent, (invitingNamesake.run w).result = .ok sent) ∧
    ∃ user ∈ w.store.users, user.email = Email.normalize "ann@example.org" ∧
      w.store.isMember 1 user.id = true :=
  namesakes_run

/-- The general statement, of that run: she stands behind the user who was inserted first. -/
theorem members_invited_shadowed_of_namesakes :
    let w := (World.mk (Store.empty : Tables) .epoch .sequence).afterAll namesakes
    (∃ sent, (invitingNamesake.run w).result = .ok sent) ∧
    ∃ user ∈ w.store.users, user.email = Email.normalize "ann@example.org" ∧
      w.store.isMember 1 user.id = true ∧ w.store.Shadowed 1 user := by
  intro w
  obtain ⟨⟨sent, hsent⟩, user, huser, hemail, hmember⟩ := namesakes_run
  have hgeneral := members_invited_shadowed .epoch .sequence namesakes .default 1 2
    "ann@example.org" .member sent hsent
  exact ⟨⟨sent, hsent⟩, user, huser, hemail, hmember, hgeneral.1 user huser hemail hmember⟩

end World

end Roster
