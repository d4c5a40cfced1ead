import Roster.Action.Team

/-!
# Actions on invitations

* `sendInvitation` — issues a pending invitation and the token to deliver;
* `acceptInvitation`, `rejectInvitation` — the addressee's answers, by token;
* `revokeInvitation` — the withdrawal by a member who may invite;
* `expireStaleInvitations` — moves pending invitations past their expiry;
* `listTeamInvitations`, `listMyInvitations` — what each side sees.

Every move away from pending is one write that only works while the invitation
is pending, so of two racing answers at most one wins.
-/

namespace Roster

/-- The checks of an invitation up to the draw of its token: the normalized
address and the user who has it. -/
def checkInvitee (team inviter : Int) (email : String) (role : Role) :
    Program (String × Option User) := do
  let member ← Membership.require team inviter .invite
  Work.require role.isInvitable .roleNotInvitable
  Work.require (member.role.mayAssign role) .permissionDenied
  let found ← requireTeam team
  -- counted again on acceptance
  let count ← Membership.count team
  Work.require (count < found.memberLimit) (.teamFull team found.memberLimit)
  let email := Email.normalize email
  Work.ofInput (Email.validate email)
  let invitee ← Program.userByEmail email
  match invitee with
  | some user =>
    let member ← Work.perform (.findMember team user.id)
    Work.require member.isNone (.alreadyMember team)
  | none => pure ()
  let outstanding ← Work.perform (.findPendingInvitation team email)
  Work.require outstanding.isNone (.alreadyInvited team)
  return (email, invitee)

/-- Invites an address to join a team at a role. -/
def sendInvitation (config : Config) (team inviter : Int) (email : String) (role : Role) :
    Program SentInvitation := do
  let (email, invitee) ← checkInvitee team inviter email role
  let token ← Program.token config.tokenLength
  let now ← Work.now
  let expiresAt ← Program.later now config.expiry
  let invitation ← Work.perform (.createInvitation
    { teamId := team
      invitedBy := inviter
      email
      inviteeId := invitee.map (·.id)
      role
      tokenHash := Token.hash token
      expiresAt
      createdAt := now })
  Program.log (.invitationSent invitation.teamId invitation.id invitation.role invitation.invitedBy)
  return ⟨invitation, ⟨token⟩, (config.acceptUrl token).map (⟨·⟩)⟩

/-- The pending invitation behind a token, for its addressee. -/
def resolveToken (token : Secret) (email : String) : Work Invitation := do
  let found ← Work.perform (.findInvitationByToken (Token.hash token.plain))
  let invitation ← Work.found .invitationNotFound found
  Work.require (invitation.isFor email) .notAddressee
  Work.require invitation.isPending (.alreadyProcessed invitation.id)
  return invitation

/-- Writes down an expiry that was noticed. If that fails it is only logged:
later readers compare the time again. -/
def expireLazily (invitation : Invitation) : Program Unit := do
  let now ← Work.now
  .ask (.store (.settleInvitation invitation.id .expired now)) fun
    | .ok _ => pure ()
    | .error e => Program.log (.expiryNotWritten invitation.id e)

/-- Joins the team of an invitation. -/
def acceptInvitation (token : Secret) (user : Int) (email : String) : Program Member := do
  let invitation ← resolveToken token email
  let now ← Work.now
  if invitation.isExpiredAt now then
    expireLazily invitation
    Program.refuse (.invitationExpired invitation.id)
  else
    let member ← Program.atomically (.enrol invitation user)
    Program.log (.invitationAccepted member.teamId member.userId member.role)
    return member

/-- Declines an invitation, even past its expiry. -/
def rejectInvitation (token : Secret) (email : String) : Program Invitation := do
  let invitation ← resolveToken token email
  let now ← Work.now
  let settled ← Work.perform (.settleInvitation invitation.id .rejected now)
  let rejected ← Work.found (.alreadyProcessed invitation.id) settled
  Program.log (.invitationRejected rejected.teamId rejected.id)
  return rejected

/-- The checks and the write of a withdrawal. -/
def revokePending (invitation requester : Int) : Work Invitation := do
  let found ← Work.perform (.findInvitation invitation)
  let found ← Work.found .invitationNotFound found
  let _ ← Membership.require found.teamId requester .invite
  Work.require found.isPending (.cannotRevoke found.id)
  let now ← Work.now
  let settled ← Work.perform (.settleInvitation found.id .revoked now)
  Work.found (.cannotRevoke found.id) settled

/-- Withdraws a pending invitation. -/
def revokeInvitation (invitation requester : Int) : Program Invitation := do
  let revoked ← revokePending invitation requester
  Program.log (.invitationRevoked revoked.teamId revoked.id requester)
  return revoked

/-- Moves the pending invitations past their expiry, of one team or of all; the
number moved. -/
def expireStaleInvitations (team : Option Int) : Program Nat := do
  let now ← Work.now
  let expired ← Work.perform (.expireStale team now)
  Program.log (.invitationsExpired expired)
  return expired

/-- A page of a team's invitations, for members who may invite. -/
def listTeamInvitations (team requester : Int) (status : Option InvitationStatus) (page : Page) :
    Program (List InvitationView) := do
  let _ ← requireTeam team
  let _ ← Membership.require team requester .invite
  let now ← Work.now
  let invitations ← Work.perform (.listInvitationsOf team status page)
  return invitations.map fun invitation => .of invitation now

/-- A page of the invitations addressed to the reader. -/
def listMyInvitations (email : String) (status : Option InvitationStatus) (page : Page) :
    Program (List InvitationView) := do
  let now ← Work.now
  let invitations ← Work.perform (.listInvitationsTo (Email.normalize email) status page)
  return invitations.map fun invitation => .of invitation now

end Roster
