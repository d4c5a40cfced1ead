import Roster.Input

/-!
# Failures

`TeamError` lists why an operation on a team can fail. Each failure has a
`kind`, a stable category for callers, and a `message` for people.
-/

namespace Roster

/-- The stable categories of failures. -/
inductive ErrorKind
  | notFound
  | conflict
  | permissionDenied
  | invalidState
  | expired
  | validation
  | internal
deriving DecidableEq, Repr

/-- Why an operation failed. -/
inductive TeamError
  | teamNotFound (team : Int)
  | memberNotFound (team user : Int)
  | invitationNotFound
  | slugTaken (slug : String)
  | alreadyMember (team : Int)
  | alreadyInvited (team : Int)
  | teamFull (team : Int) (limit : UInt32)
  | permissionDenied
  | ownerRoleFixed
  | ownerCannotGo
  | onlyOwnerDeletes
  | onlyOwnerTransfers
  | notAddressee
  | roleNotInvitable
  | alreadyProcessed (invitation : Int)
  | cannotRevoke (invitation : Int)
  | invitationExpired (invitation : Int)
  | invalid (reason : String)
  | database (reason : String)
  | internal (reason : String)
deriving DecidableEq, Repr

namespace TeamError

/-- The category of a failure. -/
def kind : TeamError → ErrorKind
  | .teamNotFound _ | .memberNotFound _ _ | .invitationNotFound => .notFound
  | .slugTaken _ | .alreadyMember _ | .alreadyInvited _ | .teamFull _ _ => .conflict
  | .permissionDenied | .ownerRoleFixed | .ownerCannotGo | .onlyOwnerDeletes
  | .onlyOwnerTransfers | .notAddressee => .permissionDenied
  | .roleNotInvitable | .alreadyProcessed _ | .cannotRevoke _ => .invalidState
  | .invitationExpired _ => .expired
  | .invalid _ => .validation
  | .database _ | .internal _ => .internal

/-- The wording of a failure. -/
def message : TeamError → String
  | .teamNotFound team => s!"team {team} not found"
  | .memberNotFound team user => s!"user {user} is not a member of team {team}"
  | .invitationNotFound => "invitation not found"
  | .slugTaken slug => s!"a team with slug \"{slug}\" already exists"
  | .alreadyMember team => s!"user is already a member of team {team}"
  | .alreadyInvited team => s!"an invitation is already pending for this email on team {team}"
  | .teamFull team limit => s!"team {team} has reached its member limit of {limit}"
  | .permissionDenied => "insufficient permission"
  | .ownerRoleFixed => "the owner's role cannot be changed"
  | .ownerCannotGo => "the owner cannot be removed from the team"
  | .onlyOwnerDeletes => "only the owner can delete the team"
  | .onlyOwnerTransfers => "only the owner can transfer ownership"
  | .notAddressee => "this invitation is addressed to a different email"
  | .roleNotInvitable => "invalid role"
  | .alreadyProcessed invitation => s!"invitation {invitation} has already been processed"
  | .cannotRevoke invitation =>
    s!"invitation {invitation} has already been processed and cannot be revoked"
  | .invitationExpired invitation => s!"invitation {invitation} has expired"
  | .invalid reason => s!"validation error: {reason}"
  | .database reason => s!"database error: {reason}"
  | .internal reason => s!"internal error: {reason}"

/-- A refused input as a failure. -/
def ofInput (reason : InvalidInput) : TeamError :=
  .invalid reason.message

end TeamError

end Roster
