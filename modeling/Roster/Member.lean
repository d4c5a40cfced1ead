import Roster.Role
import Roster.Team

/-!
# Users and members

A `User` is an entry of the application's directory. A `Member` ties a user to
a team with a role and is keyed by both. A `MemberProfile` is a member shown
with the user's details, and `MyTeam` a team shown with the reader's role.
-/

namespace Roster

/-- A user of the directory; the e-mail address is stored normalized. -/
structure User where
  id : Int
  email : String
  name : String
deriving DecidableEq

/-- A user's membership of a team. -/
structure Member where
  teamId : Int
  userId : Int
  role : Role
  joinedAt : Instant
  updatedAt : Instant
deriving DecidableEq

/-- A membership that is about to be stored. -/
structure MemberDraft where
  teamId : Int
  userId : Int
  role : Role
  joinedAt : Instant

/-- A member with the details of the user. -/
structure MemberProfile where
  member : Member
  email : String
  name : String
deriving DecidableEq

/-- A team with the role that the reader has in it. -/
structure MyTeam where
  team : Team
  role : Role
deriving DecidableEq

/-- The member that a draft becomes. -/
def MemberDraft.member (draft : MemberDraft) : Member :=
  ⟨draft.teamId, draft.userId, draft.role, draft.joinedAt, draft.joinedAt⟩

/-- Whether the membership is the given user's in the given team. -/
def Member.isOf (member : Member) (team user : Int) : Bool :=
  member.teamId = team && member.userId = user

end Roster
