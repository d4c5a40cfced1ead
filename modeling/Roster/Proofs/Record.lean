import Roster.Proofs.Time.RoundTrip
import Roster.Record.Basic

/-!
# Records are read back

* `Json.IsId` — the ids that there are outside, and `Instant.InFourDigits` the instants that have a
  common form;
* `Team.ReadFrom`, `Member.ReadFrom` and others — what a reader finds in the fields of a record,
  and `Team.ofJson?_eq_some` and others that it reads a record if it finds all this;
* `Json.RoundTrips` — a record is read back from what is written of it, also one that was itself
  read from some other value;
* `records_roundTrip` — all records are, an invitation with its digest; without it, it is not read.
-/

namespace Roster

/-! ## Plain values -/

namespace Json

/-- An id is an integer of 64 bits. -/
def IsId (n : Int) : Prop :=
  minId ≤ n ∧ n ≤ maxId

@[simp]
theorem id?_int {n : Int} (h : IsId n) : (Json.int n).id? = some n :=
  if_pos h

@[simp]
theorem text?_text (value : String) : (Json.text value).text? = some value := rfl

@[simp]
theorem tag?_text (name : String) : (Json.text name).tag? = some name := rfl

@[simp]
theorem sharedTag?_text (name : String) : (Json.text name).sharedTag? = some name := rfl

@[simp]
theorem word?_toNat (n : UInt32) : (Json.int n.toNat).word? = some n := by
  have hrange : (0 : Int) ≤ n.toNat ∧ (n.toNat : Int) ≤ 4294967295 := by
    have := n.toNat_lt
    omega
  have hread : (Json.int n.toNat).int? 0 4294967295 = some (n.toNat : Int) := if_pos hrange
  rw [word?, hread, Option.map_some, Int.toNat_natCast, UInt32.ofNat_toNat]

variable {α : Type} {field : String → Option Json} {name : String} {read : Json → Option α}

theorem required_of {value : Json} {a : α} (hfield : field name = some value)
    (hread : read value = some a) : required field name read = some a := by
  rw [required, hfield, Option.bind_some, hread]

/-- Whatever was read as an id is one. -/
theorem isId_of_id? {value : Json} {n : Int} (h : value.id? = some n) : IsId n := by
  cases value with
  | int m =>
    simp only [id?, int?] at h
    split at h
    · rename_i hrange
      cases h
      exact hrange
    · cases h
  | _ => cases h

theorem isId_of_required {n : Int} (h : required field name id? = some n) : IsId n := by
  obtain ⟨value, -, hread⟩ := Option.bind_eq_some_iff.mp h
  exact isId_of_id? hread

theorem isId_of_optional {found : Option Int} (h : optional field name id? = some found) :
    ∀ n ∈ found, IsId n := by
  rintro n rfl
  unfold optional at h
  split at h
  · cases h
  · cases h
  · obtain ⟨m, hread, hm⟩ := Option.map_eq_some_iff.mp h
    cases hm
    exact isId_of_id? hread

/-- A value that may be missing is written as null, and read back from it. -/
theorem optional_ofOption (write : α → Json) {found : Option α}
    (hfield : field name = some (ofOption write found)) (hnull : ∀ a, write a ≠ .null)
    (hread : ∀ a ∈ found, read (write a) = some a) : optional field name read = some found := by
  unfold optional
  rw [hfield]
  cases found with
  | none => rfl
  | some a =>
    have hvalue := hread a rfl
    -- rules out the case of a null
    have hne := hnull a
    simp only [ofOption]
    rw [hvalue, Option.map_some]

end Json

@[simp]
theorem Instant.ofJson?_toJson {t : Instant} (h : t.InFourDigits) :
    Instant.ofJson? t.toJson = some t := by
  rw [ofJson?, toJson, Json.text?_text, Option.bind_some, ofText?_text h]

@[simp]
theorem Role.ofJson?_toJson (role : Role) : Role.ofJson? role.toJson = some role :=
  ofName_name role

@[simp]
theorem Visibility.ofJson?_toJson (visibility : Visibility) :
    Visibility.ofJson? visibility.toJson = some visibility :=
  ofName_name visibility

@[simp]
theorem TeamStatus.ofJson?_toJson (status : TeamStatus) :
    TeamStatus.ofJson? status.toJson = some status :=
  ofName_name status

@[simp]
theorem InvitationStatus.ofJson?_toJson (status : InvitationStatus) :
    InvitationStatus.ofJson? status.toJson = some status :=
  ofName_name status

/-! ## Records -/

open Json (IsId required optional ofOption required_of optional_ofOption)

namespace Team

/-- The ids are ids outside too. -/
structure HasIds (team : Team) : Prop where
  id : IsId team.id
  ownerId : IsId team.ownerId

/-- The instants are in the years 0 to 9999. -/
structure InFourDigits (team : Team) : Prop where
  createdAt : team.createdAt.InFourDigits
  updatedAt : team.updatedAt.InFourDigits

/-- What is found of the team in fields. -/
structure ReadFrom (team : Team) (field : String → Option Json) : Prop where
  id : required field "id" Json.id? = some team.id
  ownerId : required field "owner_id" Json.id? = some team.ownerId
  name : required field "name" Json.text? = some team.name
  slug : required field "slug" Json.text? = some team.slug
  description : optional field "description" Json.text? = some team.description
  visibility : required field "visibility" Visibility.ofJson? = some team.visibility
  memberLimit : required field "member_limit" Json.word? = some team.memberLimit
  status : required field "status" TeamStatus.ofJson? = some team.status
  createdAt : required field "created_at" Instant.ofJson? = some team.createdAt
  updatedAt : required field "updated_at" Instant.ofJson? = some team.updatedAt

variable {team : Team}

theorem ofJson?_eq_some {value : Json} : ofJson? value = some team ↔
    ∃ field, value.fields? fieldNames = some field ∧ team.ReadFrom field := by
  simp only [ofJson?, ↓Option.bind_eq_bind, ↓Option.bind_eq_some_iff]
  constructor
  · rintro ⟨field, hfield, _, hid, _, howner, _, hname, _, hslug, _, hdescription, _, hvisibility,
      _, hlimit, _, hstatus, _, hcreated, _, hupdated, hteam⟩
    cases hteam
    exact ⟨field, hfield, hid, howner, hname, hslug, hdescription, hvisibility, hlimit, hstatus,
      hcreated, hupdated⟩
  · rintro ⟨field, hfield, h⟩
    exact ⟨field, hfield, _, h.id, _, h.ownerId, _, h.name, _, h.slug, _, h.description, _,
      h.visibility, _, h.memberLimit, _, h.status, _, h.createdAt, _, h.updatedAt, rfl⟩

theorem ofJson?_toJson (hids : team.HasIds) (hyears : team.InFourDigits) :
    ofJson? team.toJson = some team := by
  refine ofJson?_eq_some.mpr ⟨(team.toFields.lookup ·), rfl, ?_⟩
  exact
    { id := required_of rfl (Json.id?_int hids.id)
      ownerId := required_of rfl (Json.id?_int hids.ownerId)
      name := required_of rfl (Json.text?_text _)
      slug := required_of rfl (Json.text?_text _)
      description := optional_ofOption Json.text rfl (fun _ h => by cases h)
        fun _ _ => Json.text?_text _
      visibility := required_of rfl (Visibility.ofJson?_toJson _)
      memberLimit := required_of rfl (Json.word?_toNat _)
      status := required_of rfl (TeamStatus.ofJson?_toJson _)
      createdAt := required_of rfl (Instant.ofJson?_toJson hyears.createdAt)
      updatedAt := required_of rfl (Instant.ofJson?_toJson hyears.updatedAt) }

theorem hasIds_of_ofJson? {value : Json} (h : ofJson? value = some team) : team.HasIds := by
  obtain ⟨_, -, hread⟩ := ofJson?_eq_some.mp h
  exact ⟨Json.isId_of_required hread.id, Json.isId_of_required hread.ownerId⟩

end Team

namespace Member

/-- The ids are ids outside too. -/
structure HasIds (member : Member) : Prop where
  teamId : IsId member.teamId
  userId : IsId member.userId

/-- The instants are in the years 0 to 9999. -/
structure InFourDigits (member : Member) : Prop where
  joinedAt : member.joinedAt.InFourDigits
  updatedAt : member.updatedAt.InFourDigits

/-- What is found of the member in fields, the role by `tag`. -/
structure ReadFrom (member : Member) (tag : Json → Option String) (field : String → Option Json) :
    Prop where
  teamId : required field "team_id" Json.id? = some member.teamId
  userId : required field "user_id" Json.id? = some member.userId
  role : required field "role" (fun value => (tag value).bind Role.ofName?) = some member.role
  joinedAt : required field "joined_at" Instant.ofJson? = some member.joinedAt
  updatedAt : required field "updated_at" Instant.ofJson? = some member.updatedAt

variable {member : Member} {tag : Json → Option String}

theorem ofFields?_eq_some {field : String → Option Json} :
    ofFields? tag field = some member ↔ member.ReadFrom tag field := by
  simp only [ofFields?, ↓Option.bind_eq_bind, ↓Option.bind_eq_some_iff]
  constructor
  · rintro ⟨_, hteam, _, huser, _, hrole, _, hjoined, _, hupdated, hmember⟩
    cases hmember
    exact ⟨hteam, huser, hrole, hjoined, hupdated⟩
  · intro h
    exact ⟨_, h.teamId, _, h.userId, _, h.role, _, h.joinedAt, _, h.updatedAt, rfl⟩

/-- The fields of a member are read back, whatever stands behind them. -/
theorem readFrom_toFields (hids : member.HasIds) (hyears : member.InFourDigits)
    (htag : ∀ name, tag (.text name) = some name) (more : List (String × Json)) :
    member.ReadFrom tag ((member.toFields ++ more).lookup ·) where
  teamId := required_of rfl (Json.id?_int hids.teamId)
  userId := required_of rfl (Json.id?_int hids.userId)
  role := by
    have hrole : (tag member.role.toJson).bind Role.ofName? = some member.role :=
      Option.bind_eq_some_iff.mpr ⟨member.role.name, htag _, Role.ofName_name member.role⟩
    exact required_of rfl hrole
  joinedAt := required_of rfl (Instant.ofJson?_toJson hyears.joinedAt)
  updatedAt := required_of rfl (Instant.ofJson?_toJson hyears.updatedAt)

theorem ReadFrom.hasIds {field : String → Option Json} (h : member.ReadFrom tag field) :
    member.HasIds :=
  ⟨Json.isId_of_required h.teamId, Json.isId_of_required h.userId⟩

theorem ofJson?_toJson (hids : member.HasIds) (hyears : member.InFourDigits) :
    ofJson? member.toJson = some member := by
  have hread := readFrom_toFields hids hyears Json.tag?_text []
  rw [List.append_nil] at hread
  exact ofFields?_eq_some.mpr hread

theorem hasIds_of_ofJson? {value : Json} (h : ofJson? value = some member) : member.HasIds := by
  obtain ⟨_, -, hmember⟩ := Option.bind_eq_some_iff.mp h
  exact (ofFields?_eq_some.mp hmember).hasIds

end Member

namespace MemberProfile

variable {profile : MemberProfile}

/-- A profile is read from an object that holds the fields of the member and the details of the
user. -/
theorem ofJson?_eq_some {value : Json} : ofJson? value = some profile ↔
    ∃ fields, value = .object fields ∧
      profile.member.ReadFrom Json.sharedTag? (fields.lookup ·) ∧
      required (fields.lookup ·) "email" Json.text? = some profile.email ∧
      required (fields.lookup ·) "name" Json.text? = some profile.name := by
  constructor
  · intro h
    cases value with
    | object fields =>
      simp only [ofJson?, ↓Option.bind_eq_bind, ↓Option.bind_eq_some_iff] at h
      obtain ⟨_, hmember, _, hemail, _, hname, hprofile⟩ := h
      cases hprofile
      exact ⟨fields, rfl, Member.ofFields?_eq_some.mp hmember, hemail, hname⟩
    | _ => cases h
  · rintro ⟨fields, rfl, hmember, hemail, hname⟩
    simp only [ofJson?, ↓Option.bind_eq_bind, ↓Option.bind_eq_some_iff]
    exact ⟨_, Member.ofFields?_eq_some.mpr hmember, _, hemail, _, hname, rfl⟩

theorem ofJson?_toJson (hids : profile.member.HasIds) (hyears : profile.member.InFourDigits) :
    ofJson? profile.toJson = some profile := by
  refine ofJson?_eq_some.mpr ⟨_, rfl, Member.readFrom_toFields hids hyears Json.sharedTag?_text _,
    ?_, ?_⟩
  · exact required_of rfl (Json.text?_text _)
  · exact required_of rfl (Json.text?_text _)

theorem hasIds_of_ofJson? {value : Json} (h : ofJson? value = some profile) :
    profile.member.HasIds := by
  obtain ⟨_, -, hmember, -, -⟩ := ofJson?_eq_some.mp h
  exact hmember.hasIds

end MemberProfile

namespace User

/-- What is found of the user in fields. -/
structure ReadFrom (user : User) (field : String → Option Json) : Prop where
  id : required field "id" Json.id? = some user.id
  email : required field "email" Json.text? = some user.email
  name : required field "name" Json.text? = some user.name

variable {user : User}

theorem ofJson?_eq_some {value : Json} : ofJson? value = some user ↔
    ∃ field, value.fields? fieldNames = some field ∧ user.ReadFrom field := by
  simp only [ofJson?, ↓Option.bind_eq_bind, ↓Option.bind_eq_some_iff]
  constructor
  · rintro ⟨field, hfield, _, hid, _, hemail, _, hname, huser⟩
    cases huser
    exact ⟨field, hfield, hid, hemail, hname⟩
  · rintro ⟨field, hfield, h⟩
    exact ⟨field, hfield, _, h.id, _, h.email, _, h.name, rfl⟩

theorem ofJson?_toJson (hid : IsId user.id) : ofJson? user.toJson = some user := by
  refine ofJson?_eq_some.mpr ⟨_, rfl, ?_⟩
  exact
    { id := required_of rfl (Json.id?_int hid)
      email := required_of rfl (Json.text?_text _)
      name := required_of rfl (Json.text?_text _) }

theorem isId_of_ofJson? {value : Json} (h : ofJson? value = some user) : IsId user.id := by
  obtain ⟨_, -, hread⟩ := ofJson?_eq_some.mp h
  exact Json.isId_of_required hread.id

end User

namespace Invitation

/-- The ids are ids outside too. -/
structure HasIds (invitation : Invitation) : Prop where
  id : IsId invitation.id
  teamId : IsId invitation.teamId
  invitedBy : IsId invitation.invitedBy
  inviteeId : ∀ n ∈ invitation.inviteeId, IsId n

/-- The instants are in the years 0 to 9999. -/
structure InFourDigits (invitation : Invitation) : Prop where
  expiresAt : invitation.expiresAt.InFourDigits
  createdAt : invitation.createdAt.InFourDigits
  acceptedAt : ∀ t ∈ invitation.acceptedAt, t.InFourDigits

/-- What is found of the invitation in fields. -/
structure ReadFrom (invitation : Invitation) (field : String → Option Json) : Prop where
  id : required field "id" Json.id? = some invitation.id
  teamId : required field "team_id" Json.id? = some invitation.teamId
  invitedBy : required field "invited_by" Json.id? = some invitation.invitedBy
  email : required field "email" Json.text? = some invitation.email
  inviteeId : optional field "invitee_user_id" Json.id? = some invitation.inviteeId
  role : required field "role" Role.ofJson? = some invitation.role
  tokenHash : required field "token_hash" Json.text? = some invitation.tokenHash
  status : required field "status" InvitationStatus.ofJson? = some invitation.status
  expiresAt : required field "expires_at" Instant.ofJson? = some invitation.expiresAt
  createdAt : required field "created_at" Instant.ofJson? = some invitation.createdAt
  acceptedAt : optional field "accepted_at" Instant.ofJson? = some invitation.acceptedAt

variable {invitation : Invitation}

theorem ofJson?_eq_some {value : Json} : ofJson? value = some invitation ↔
    ∃ field, value.fields? fieldNames = some field ∧ invitation.ReadFrom field := by
  simp only [ofJson?, ↓Option.bind_eq_bind, ↓Option.bind_eq_some_iff]
  constructor
  · rintro ⟨field, hfield, _, hid, _, hteam, _, hinviter, _, hemail, _, hinvitee, _, hrole, _,
      hhash, _, hstatus, _, hexpires, _, hcreated, _, haccepted, hinvitation⟩
    cases hinvitation
    exact ⟨field, hfield, hid, hteam, hinviter, hemail, hinvitee, hrole, hhash, hstatus, hexpires,
      hcreated, haccepted⟩
  · rintro ⟨field, hfield, h⟩
    exact ⟨field, hfield, _, h.id, _, h.teamId, _, h.invitedBy, _, h.email, _, h.inviteeId, _,
      h.role, _, h.tokenHash, _, h.status, _, h.expiresAt, _, h.createdAt, _, h.acceptedAt, rfl⟩

/-- With its digest an invitation is read back. -/
theorem ofJson?_toStoredJson (hids : invitation.HasIds) (hyears : invitation.InFourDigits) :
    ofJson? invitation.toStoredJson = some invitation := by
  refine ofJson?_eq_some.mpr ⟨((invitation.hashField :: invitation.toFields).lookup ·), rfl, ?_⟩
  exact
    { id := required_of rfl (Json.id?_int hids.id)
      teamId := required_of rfl (Json.id?_int hids.teamId)
      invitedBy := required_of rfl (Json.id?_int hids.invitedBy)
      email := required_of rfl (Json.text?_text _)
      inviteeId := optional_ofOption Json.int rfl (fun _ h => by cases h)
        fun n hn => Json.id?_int (hids.inviteeId n hn)
      role := required_of rfl (Role.ofJson?_toJson _)
      tokenHash := required_of rfl (Json.text?_text _)
      status := required_of rfl (InvitationStatus.ofJson?_toJson _)
      expiresAt := required_of rfl (Instant.ofJson?_toJson hyears.expiresAt)
      createdAt := required_of rfl (Instant.ofJson?_toJson hyears.createdAt)
      acceptedAt := optional_ofOption Instant.toJson rfl (fun _ h => by cases h)
        fun t ht => Instant.ofJson?_toJson (hyears.acceptedAt t ht) }

/-- Without its digest it is not read. -/
theorem ofJson?_toJson (invitation : Invitation) : ofJson? invitation.toJson = none := by
  rw [Option.eq_none_iff_forall_ne_some]
  intro found h
  obtain ⟨_, hfield, hread⟩ := ofJson?_eq_some.mp h
  cases hfield
  have hnone : invitation.toFields.lookup "token_hash" = none := rfl
  have hhash := hread.tokenHash
  simp only [required, hnone, Option.bind_none] at hhash
  cases hhash

theorem hasIds_of_ofJson? {value : Json} (h : ofJson? value = some invitation) :
    invitation.HasIds := by
  obtain ⟨_, -, hread⟩ := ofJson?_eq_some.mp h
  exact ⟨Json.isId_of_required hread.id, Json.isId_of_required hread.teamId,
    Json.isId_of_required hread.invitedBy, Json.isId_of_optional hread.inviteeId⟩

end Invitation

/-! ## Round trips -/

/-- What is written of a record is read back as that record: of every record with ids of 64 bits
and instants in the years 0 to 9999, and of every record with such instants that was itself read,
from whatever value. -/
structure Json.RoundTrips {α : Type} (write : α → Json) (read : Json → Option α)
    (hasIds inFourDigits : α → Prop) : Prop where
  written : ∀ a, hasIds a → inFourDigits a → read (write a) = some a
  rewritten : ∀ value a, read value = some a → inFourDigits a → read (write a) = some a

/-- What is read has ids of 64 bits, so the second part follows from the first. -/
theorem Json.RoundTrips.of {α : Type} {write : α → Json} {read : Json → Option α}
    {hasIds inFourDigits : α → Prop}
    (hwritten : ∀ {a}, hasIds a → inFourDigits a → read (write a) = some a)
    (hread : ∀ {value a}, read value = some a → hasIds a) :
    RoundTrips write read hasIds inFourDigits where
  written _ hids hyears := hwritten hids hyears
  rewritten _ _ h hyears := hwritten (hread h) hyears

/-- Records go through their written form unchanged, an invitation together with its digest; and
without the digest it is not read at all. -/
theorem records_roundTrip :
    Json.RoundTrips Team.toJson Team.ofJson? Team.HasIds Team.InFourDigits ∧
    Json.RoundTrips Member.toJson Member.ofJson? Member.HasIds Member.InFourDigits ∧
    Json.RoundTrips MemberProfile.toJson MemberProfile.ofJson? (·.member.HasIds)
      (·.member.InFourDigits) ∧
    Json.RoundTrips User.toJson User.ofJson? (IsId ·.id) (fun _ => True) ∧
    Json.RoundTrips Invitation.toStoredJson Invitation.ofJson? Invitation.HasIds
      Invitation.InFourDigits ∧
    ∀ invitation : Invitation, Invitation.ofJson? invitation.toJson = none := by
  refine ⟨?_, ?_, ?_, ?_, ?_, Invitation.ofJson?_toJson⟩
  · exact .of Team.ofJson?_toJson Team.hasIds_of_ofJson?
  · exact .of Member.ofJson?_toJson Member.hasIds_of_ofJson?
  · exact .of MemberProfile.ofJson?_toJson MemberProfile.hasIds_of_ofJson?
  · exact .of (fun hid _ => User.ofJson?_toJson hid) User.isId_of_ofJson?
  · exact .of Invitation.ofJson?_toStoredJson Invitation.hasIds_of_ofJson?

/-- A team from elsewhere: a leap second before the first of March in a zone east of UTC, a blank
for a separator, a visibility as an object, no description, and a field that teams do not have. -/
def foreignTeam : Json :=
  .object
    [("id", .int 1), ("owner_id", .int 7), ("name", .text "Core"), ("slug", .text "core"),
     ("visibility", .object [("public", .null)]), ("member_limit", .int 5),
     ("status", .text "active"), ("created_at", .text "2024-03-01t00:29:60.5+00:30"),
     ("updated_at", .text "2024-03-01 08:00:00.1234567891Z"), ("colour", .text "red")]

theorem records_roundTrip_of_foreign_team :
    ∃ team, Team.ofJson? foreignTeam = some team ∧
      team.createdAt.text = "2024-02-29T23:59:60.500Z" ∧
      team.updatedAt.text = "2024-03-01T08:00:00.123456789Z" ∧
      Team.ofJson? team.toJson = some team := by
  have hread : (Team.ofJson? foreignTeam).any (fun team =>
      team.createdAt.InFourDigits && team.updatedAt.InFourDigits &&
      team.createdAt.text = "2024-02-29T23:59:60.500Z" &&
      team.updatedAt.text = "2024-03-01T08:00:00.123456789Z") = true := by
    decide +kernel
  obtain ⟨team, hteam, hfields⟩ := (Option.any_eq_true _ _).mp hread
  simp only [Bool.and_eq_true, decide_eq_true_eq] at hfields
  obtain ⟨⟨⟨hcreated, hupdated⟩, hcreatedText⟩, hupdatedText⟩ := hfields
  exact ⟨team, hteam, hcreatedText, hupdatedText,
    records_roundTrip.1.rewritten foreignTeam team hteam ⟨hcreated, hupdated⟩⟩

end Roster
