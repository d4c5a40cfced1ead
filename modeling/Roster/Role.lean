/-!
# Roles and permissions

A member holds one of four roles, `owner > admin > member > guest` by
`Role.level`. What a role allows is two tables:

* `Role.allows` — which actions on a team it permits;
* `Role.mayAssign` — which roles its holder may hand out; nobody hands out
  `owner`.

Roles and permissions are stored and shown under their `name`.
-/

namespace Roster

/-- The privilege of a member in one team. -/
inductive Role
  | owner
  | admin
  | member
  | guest
deriving DecidableEq, Repr

/-- The governed actions on a team. -/
inductive Permission
  | view
  | invite
  | removeMember
  | updateRole
  | updateTeam
  | deleteTeam
deriving DecidableEq, Repr

namespace Role

/-- All roles, highest first. -/
def all : List Role := [.owner, .admin, .member, .guest]

/-- The name under which a role is stored. -/
def name : Role → String
  | .owner => "owner"
  | .admin => "admin"
  | .member => "member"
  | .guest => "guest"

/-- The role of a stored name. -/
def ofName? : String → Option Role
  | "owner" => some .owner
  | "admin" => some .admin
  | "member" => some .member
  | "guest" => some .guest
  | _ => none

/-- The rank of a role. -/
def level : Role → Nat
  | .owner => 100
  | .admin => 75
  | .member => 50
  | .guest => 25

/-- Whether a role ranks at least as high as another. -/
def isAtLeast (role other : Role) : Bool :=
  other.level ≤ role.level

/-- The permission table: everyone views, owners and admins manage, and only
the owner deletes. -/
def allows : Role → Permission → Bool
  | _, .view => true
  | .owner, _ => true
  | .admin, .deleteTeam => false
  | .admin, _ => true
  | _, _ => false

/-- Whether a holder of the first role may hand out the second. -/
def mayAssign : Role → Role → Bool
  | .owner, target => target ≠ .owner
  | .admin, target => target ≠ .owner
  | _, _ => false

/-- Whether an invitation may offer the role. -/
def isInvitable (role : Role) : Bool :=
  role ≠ .owner

/-- The rank of a role given by name; unknown names rank zero. -/
def levelOfName (text : String) : Nat :=
  match ofName? text with
  | some role => role.level
  | none => 0

theorem ofName_name (role : Role) : ofName? role.name = some role := by
  cases role <;> rfl

end Role

namespace Permission

/-- All permissions. -/
def all : List Permission :=
  [.view, .invite, .removeMember, .updateRole, .updateTeam, .deleteTeam]

/-- The name of a permission. -/
def name : Permission → String
  | .view => "view"
  | .invite => "invite"
  | .removeMember => "remove_member"
  | .updateRole => "update_role"
  | .updateTeam => "update_team"
  | .deleteTeam => "delete_team"

/-- The permission of a name. -/
def ofName? : String → Option Permission
  | "view" => some .view
  | "invite" => some .invite
  | "remove_member" => some .removeMember
  | "update_role" => some .updateRole
  | "update_team" => some .updateTeam
  | "delete_team" => some .deleteTeam
  | _ => none

end Permission

end Roster
