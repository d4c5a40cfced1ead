import Roster.Work

/-!
# Membership rules

Who may change whose role, and who may leave or be removed. The owner's
membership is made once, with the team, and nothing here changes its role or
removes it.

* `Membership.require` — the member behind a request, if the role permits it;
* `Membership.changeRole`, `Membership.remove`, `Membership.leave` — the
  changes, with the checks before them.
-/

namespace Roster.Membership

/-- Records the owner of a team that was just created. -/
def addOwner (team : Team) : Work Member :=
  Work.perform (.addMember ⟨team.id, team.ownerId, .owner, team.createdAt⟩)

/-- Records a new member, who cannot be an owner. -/
def add (team user : Int) (role : Role) : Work Member := do
  Work.require (role ≠ .owner) .onlyOwnerTransfers
  let now ← Work.now
  Work.perform (.addMember ⟨team, user, role, now⟩)

/-- A user's membership of a team. -/
def get (team user : Int) : Work Member := do
  let member ← Work.perform (.findMember team user)
  Work.found (.memberNotFound team user) member

/-- The number of members of a team. -/
def count (team : Int) : Work UInt32 :=
  Work.perform (.countMembers team)

/-- A user's membership of a team, if its role has the permission. Somebody who
is no member has no permission either. -/
def require (team user : Int) (permission : Permission) : Work Member := do
  let member ← Work.perform (.findMember team user)
  let member ← Work.found .permissionDenied member
  Work.require (member.role.allows permission) .permissionDenied
  return member

/-- Changes the role of a member on behalf of another. The owner's role is
fixed, and no second owner is made. -/
def changeRole (team target requester : Int) (role : Role) : Work Member := do
  let acting ← require team requester .updateRole
  let member ← get team target
  Work.require (member.role ≠ .owner) .ownerRoleFixed
  Work.require (role ≠ .owner) .onlyOwnerTransfers
  Work.require (acting.role.mayAssign role) .permissionDenied
  let now ← Work.now
  Work.perform (.setRole team target role now)

/-- Removes a member on behalf of another; members may always remove
themselves, and nobody removes the owner. -/
def remove (team target requester : Int) : Work Unit := do
  let member ← get team target
  Work.require (member.role ≠ .owner) .ownerCannotGo
  if target ≠ requester then
    let _ ← require team requester .removeMember
  Work.perform (.removeMember team target)

/-- Removes oneself. -/
def leave (team user : Int) : Work Unit :=
  remove team user user

end Roster.Membership
