import Roster.Store.Basic
import Roster.Time.Text

/-!
# Rows of a database

A database keeps enumerations as text and member limits as signed integers, so
a row can hold values that no record has. Each row type has two directions:

* `TeamRow.of`, `MemberRow.of`, `InvitationRow.of` — the row of a record;
* `TeamRow.read`, `MemberRow.read`, `InvitationRow.read` — the record of a row,
  or the failure that names the first column without a meaning.

`read_of` says that reading a written record gives it back.
-/

namespace Roster

/-- A row of the table of teams. -/
structure TeamRow where
  id : Int
  ownerId : Int
  name : String
  slug : String
  description : Option String
  visibility : String
  memberLimit : Int
  status : String
  createdAt : Instant
  updatedAt : Instant
deriving DecidableEq

/-- A row of the table of members. -/
structure MemberRow where
  teamId : Int
  userId : Int
  role : String
  joinedAt : Instant
  updatedAt : Instant
deriving DecidableEq

/-- A row of the table of invitations. -/
structure InvitationRow where
  id : Int
  teamId : Int
  invitedBy : Int
  email : String
  inviteeId : Option Int
  role : String
  tokenHash : String
  status : String
  expiresAt : Instant
  createdAt : Instant
  acceptedAt : Option Instant
deriving DecidableEq

/-- Reads an enumeration from its column. -/
def readColumn {α : Type} (column : String) (ofName? : String → Option α) (text : String) :
    Except TeamError α :=
  match ofName? text with
  | some value => .ok value
  | none => .error (.database s!"invalid {column} value \"{text}\"")

namespace TeamRow

/-- The row of a team. -/
def of (team : Team) : TeamRow :=
  { id := team.id
    ownerId := team.ownerId
    name := team.name
    slug := team.slug
    description := team.description
    visibility := team.visibility.name
    memberLimit := team.memberLimit.toNat
    status := team.status.name
    createdAt := team.createdAt
    updatedAt := team.updatedAt }

/-- Reads a member limit. -/
def readLimit (limit : Int) : Except TeamError UInt32 :=
  if 0 ≤ limit ∧ limit ≤ maxCount then .ok (UInt32.ofNat limit.toNat)
  else .error (.database s!"invalid member_limit {limit}")

/-- The team of a row. -/
def read (row : TeamRow) : Except TeamError Team := do
  let visibility ← readColumn "visibility" Visibility.ofName? row.visibility
  let memberLimit ← readLimit row.memberLimit
  let status ← readColumn "status" TeamStatus.ofName? row.status
  return { id := row.id
           ownerId := row.ownerId
           name := row.name
           slug := row.slug
           description := row.description
           visibility
           memberLimit
           status
           createdAt := row.createdAt
           updatedAt := row.updatedAt }

/-- Whether the row is of a team in use. -/
def isActive (row : TeamRow) : Bool :=
  row.status = TeamStatus.active.name

theorem readLimit_toNat (limit : UInt32) : readLimit limit.toNat = .ok limit := by
  have small : limit.toNat < 4294967296 := limit.toNat_lt
  have inside : (limit.toNat : Int) ≤ maxCount := by simp only [maxCount]; omega
  simp [readLimit, inside]

theorem read_of (team : Team) : (of team).read = .ok team := by
  simp [of, read, readColumn, readLimit_toNat, Visibility.ofName_name, TeamStatus.ofName_name,
    bind, Except.bind, pure, Except.pure]

end TeamRow

namespace MemberRow

/-- The row of a member. -/
def of (member : Member) : MemberRow :=
  ⟨member.teamId, member.userId, member.role.name, member.joinedAt, member.updatedAt⟩

/-- The member of a row. -/
def read (row : MemberRow) : Except TeamError Member := do
  let role ← readColumn "role" Role.ofName? row.role
  return ⟨row.teamId, row.userId, role, row.joinedAt, row.updatedAt⟩

/-- Whether the row has the given key. -/
def isOf (row : MemberRow) (team user : Int) : Bool :=
  row.teamId = team && row.userId = user

theorem read_of (member : Member) : (of member).read = .ok member := by
  simp [of, read, readColumn, Role.ofName_name, bind, Except.bind, pure, Except.pure]

end MemberRow

namespace InvitationRow

/-- The row of an invitation. -/
def of (invitation : Invitation) : InvitationRow :=
  { id := invitation.id
    teamId := invitation.teamId
    invitedBy := invitation.invitedBy
    email := invitation.email
    inviteeId := invitation.inviteeId
    role := invitation.role.name
    tokenHash := invitation.tokenHash
    status := invitation.status.name
    expiresAt := invitation.expiresAt
    createdAt := invitation.createdAt
    acceptedAt := invitation.acceptedAt }

/-- The invitation of a row. -/
def read (row : InvitationRow) : Except TeamError Invitation := do
  let role ← readColumn "role" Role.ofName? row.role
  let status ← readColumn "status" InvitationStatus.ofName? row.status
  return { id := row.id
           teamId := row.teamId
           invitedBy := row.invitedBy
           email := row.email
           inviteeId := row.inviteeId
           role
           tokenHash := row.tokenHash
           status
           expiresAt := row.expiresAt
           createdAt := row.createdAt
           acceptedAt := row.acceptedAt }

/-- Whether the row is of a pending invitation. -/
def isPending (row : InvitationRow) : Bool :=
  row.status = InvitationStatus.pending.name

theorem read_of (invitation : Invitation) : (of invitation).read = .ok invitation := by
  simp [of, read, readColumn, Role.ofName_name, InvitationStatus.ofName_name, bind, Except.bind,
    pure, Except.pure]

end InvitationRow

end Roster
