import Roster.Action.Invitation
import Roster.Action.Member

/-!
# Actions as data

`Action` lists the sixteen operations that the library offers to its callers,
`Action.Reply` what each gives back, and `Action.program` the program that
carries it out under given settings. `MembershipCall` does the same for the
membership rules when they are used directly, without looking for the team.
-/

namespace Roster

/-- The operations that callers may ask for. -/
inductive Action
  | createTeam (input : CreateTeam)
  | updateTeam (input : UpdateTeam)
  | deleteTeam (team requester : Int)
  | getTeam (team requester : Int)
  | listMyTeams (user : Int) (page : Page)
  | listMembers (team requester : Int)
  | updateMemberRole (team target requester : Int) (role : Role)
  | removeMember (team target requester : Int)
  | leaveTeam (team user : Int)
  | sendInvitation (team inviter : Int) (email : String) (role : Role)
  | listTeamInvitations (team requester : Int) (status : Option InvitationStatus) (page : Page)
  | listMyInvitations (email : String) (status : Option InvitationStatus) (page : Page)
  | acceptInvitation (token : Secret) (user : Int) (email : String)
  | rejectInvitation (token : Secret) (email : String)
  | revokeInvitation (invitation requester : Int)
  | expireStaleInvitations (team : Option Int)

namespace Action

/-- What a successful action gives back. -/
abbrev Reply : Action → Type
  | .createTeam _ => Team
  | .updateTeam _ => Team
  | .deleteTeam _ _ => Nat
  | .getTeam _ _ => Team
  | .listMyTeams _ _ => List MyTeam
  | .listMembers _ _ => List MemberProfile
  | .updateMemberRole _ _ _ _ => Member
  | .removeMember _ _ _ => Unit
  | .leaveTeam _ _ => Unit
  | .sendInvitation _ _ _ _ => SentInvitation
  | .listTeamInvitations _ _ _ _ => List InvitationView
  | .listMyInvitations _ _ _ => List InvitationView
  | .acceptInvitation _ _ _ => Member
  | .rejectInvitation _ _ => Invitation
  | .revokeInvitation _ _ => Invitation
  | .expireStaleInvitations _ => Nat

/-- The program of an action. -/
def program (config : Config) : (action : Action) → Program action.Reply
  | .createTeam input => Roster.createTeam config input
  | .updateTeam input => Roster.updateTeam input
  | .deleteTeam team requester => Roster.deleteTeam team requester
  | .getTeam team requester => Roster.getTeam team requester
  | .listMyTeams user page => Roster.listMyTeams user page
  | .listMembers team requester => Roster.listMembers team requester
  | .updateMemberRole team target requester role =>
    Roster.updateMemberRole team target requester role
  | .removeMember team target requester => Roster.removeMember team target requester
  | .leaveTeam team user => Roster.leaveTeam team user
  | .sendInvitation team inviter email role =>
    Roster.sendInvitation config team inviter email role
  | .listTeamInvitations team requester status page =>
    Roster.listTeamInvitations team requester status page
  | .listMyInvitations email status page => Roster.listMyInvitations email status page
  | .acceptInvitation token user email => Roster.acceptInvitation token user email
  | .rejectInvitation token email => Roster.rejectInvitation token email
  | .revokeInvitation invitation requester => Roster.revokeInvitation invitation requester
  | .expireStaleInvitations team => Roster.expireStaleInvitations team

/-- The reply of an action. -/
def answer : (action : Action) → action.Reply → Answer
  | .createTeam _, reply => .team reply
  | .updateTeam _, reply => .team reply
  | .deleteTeam _ _, reply => .count reply
  | .getTeam _ _, reply => .team reply
  | .listMyTeams _ _, reply => .myTeams reply
  | .listMembers _ _, reply => .profiles reply
  | .updateMemberRole _ _ _ _, reply => .member reply
  | .removeMember _ _ _, _ => .unit
  | .leaveTeam _ _, _ => .unit
  | .sendInvitation _ _ _ _, reply => .sent reply
  | .listTeamInvitations _ _ _ _, reply => .views reply
  | .listMyInvitations _ _ _, reply => .views reply
  | .acceptInvitation _ _ _, reply => .member reply
  | .rejectInvitation _ _, reply => .invitation reply
  | .revokeInvitation _ _, reply => .invitation reply
  | .expireStaleInvitations _, reply => .count reply

end Action

/-- The membership rules, used directly. -/
inductive MembershipCall
  | get (team user : Int)
  | count (team : Int)
  | require (team user : Int) (permission : Permission)
  | changeRole (team target requester : Int) (role : Role)
  | remove (team target requester : Int)
  | leave (team user : Int)

namespace MembershipCall

/-- What a membership rule gives back. -/
abbrev Reply : MembershipCall → Type
  | .get _ _ => Member
  | .count _ => UInt32
  | .require _ _ _ => Member
  | .changeRole _ _ _ _ => Member
  | .remove _ _ _ => Unit
  | .leave _ _ => Unit

/-- The program of a membership rule. -/
def program : (call : MembershipCall) → Program call.Reply
  | .get team user => Program.ofWork (Membership.get team user)
  | .count team => Program.ofWork (Membership.count team)
  | .require team user permission => Program.ofWork (Membership.require team user permission)
  | .changeRole team target requester role =>
    Program.ofWork (Membership.changeRole team target requester role)
  | .remove team target requester => Program.ofWork (Membership.remove team target requester)
  | .leave team user => Program.ofWork (Membership.leave team user)

/-- The reply of a membership rule. -/
def answer : (call : MembershipCall) → call.Reply → Answer
  | .get _ _, reply => .member reply
  | .count _, reply => .count reply.toNat
  | .require _ _ _, reply => .member reply
  | .changeRole _ _ _ _, reply => .member reply
  | .remove _ _ _, _ => .unit
  | .leave _ _, _ => .unit

end MembershipCall

end Roster
