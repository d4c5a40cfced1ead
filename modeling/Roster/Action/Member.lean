import Roster.Action.Team

/-!
# Actions on members

* `listMembers` — for any member, guests included;
* `updateMemberRole`, `removeMember`, `leaveTeam` — the membership rules behind
  the check that the team is active.

Memberships outlive a deleted team, so every action looks for the team first.
-/

namespace Roster

/-- The members of a team with their details from the directory. -/
def listMembers (team requester : Int) : Program (List MemberProfile) := do
  let _ ← requireTeam team
  let _ ← Membership.require team requester .view
  Work.perform (.listProfiles team)

/-- Changes the role of a member. -/
def updateMemberRole (team target requester : Int) (role : Role) : Program Member := do
  let _ ← requireTeam team
  let member ← Membership.changeRole team target requester role
  Program.log (.roleUpdated member.teamId member.userId member.role requester)
  return member

/-- Removes a member. -/
def removeMember (team target requester : Int) : Program Unit := do
  let _ ← requireTeam team
  Membership.remove team target requester
  Program.log (.memberRemoved team target requester)

/-- Removes oneself. -/
def leaveTeam (team user : Int) : Program Unit := do
  let _ ← requireTeam team
  Membership.leave team user
  Program.log (.memberLeft team user)

end Roster
