import Roster.Store.Basic

/-!
# Answers

* `Answer` — anything that can come back to a caller, in one type;
* `Answer.ofStore` — the typed reply of a store call as an answer;
* `AnyCall` — a store call with its kind of reply beside it, so that calls of
  every kind stand in one list.
-/

namespace Roster

/-- Anything that can come back to a caller. -/
inductive Answer
  | unit
  | count (n : Nat)
  | time (at_ : Instant)
  | names (names : List String)
  | team (team : Team)
  | foundTeam (team : Option Team)
  | teams (teams : List Team)
  | myTeams (teams : List MyTeam)
  | member (member : Member)
  | foundMember (member : Option Member)
  | members (members : List Member)
  | profiles (profiles : List MemberProfile)
  | user (user : User)
  | foundUser (user : Option User)
  | invitation (invitation : Invitation)
  | foundInvitation (invitation : Option Invitation)
  | invitations (invitations : List Invitation)
  | views (views : List InvitationView)
  | sent (sent : SentInvitation)
  | all (answers : List Answer)
  | each (results : List (Except TeamError Answer))

/-- The kinds of reply that store calls have. -/
inductive ReplyKind
  | nothing
  | count
  | memberCount
  | team
  | foundTeam
  | teams
  | member
  | foundMember
  | members
  | profiles
  | invitation
  | foundInvitation
  | invitations
  deriving DecidableEq, Repr

/-- The type of a kind of reply. -/
abbrev ReplyKind.type : ReplyKind → Type
  | nothing => Unit
  | count => Nat
  | memberCount => UInt32
  | team => Team
  | foundTeam => Option Team
  | teams => List Team
  | member => Member
  | foundMember => Option Member
  | members => List Member
  | profiles => List MemberProfile
  | invitation => Invitation
  | foundInvitation => Option Invitation
  | invitations => List Invitation

/-- A store call with its kind of reply. -/
structure AnyCall where
  kind : ReplyKind
  call : StoreCall kind.type

namespace Answer

/-- The reply of a store call. -/
def ofStore : {α : Type} → StoreCall α → α → Answer
  | _, .createTeam _, reply => .team reply
  | _, .findTeam _, reply => .foundTeam reply
  | _, .findTeamBySlug _ _, reply => .foundTeam reply
  | _, .listTeamsOf _ _, reply => .teams reply
  | _, .updateTeam _, reply => .team reply
  | _, .deleteTeam _ _, _ => .unit
  | _, .addMember _, reply => .member reply
  | _, .findMember _ _, reply => .foundMember reply
  | _, .listMembers _, reply => .members reply
  | _, .listProfiles _, reply => .profiles reply
  | _, .setRole _ _ _ _, reply => .member reply
  | _, .removeMember _ _, _ => .unit
  | _, .countMembers _, reply => .count reply.toNat
  | _, .createInvitation _, reply => .invitation reply
  | _, .findInvitation _, reply => .foundInvitation reply
  | _, .findInvitationByToken _, reply => .foundInvitation reply
  | _, .findPendingInvitation _ _, reply => .foundInvitation reply
  | _, .listInvitationsOf _ _ _, reply => .invitations reply
  | _, .listInvitationsTo _ _ _, reply => .invitations reply
  | _, .settleInvitation _ _ _, reply => .foundInvitation reply
  | _, .revokePending _, reply => .count reply
  | _, .expireStale _ _, reply => .count reply

end Answer

end Roster
