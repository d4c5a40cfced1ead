import Roster.Answer
import Roster.Membership

/-!
# Units of work

The changes that touch more than one record and are made all or nothing.

* `found` — a team together with its owner's membership;
* `enrol` — a member together with the acceptance of the invitation, if the
  team has room;
* `dissolve` — the deletion of a team together with its pending invitations;
* `batch` — any list of store calls, up to the first that fails.
-/

namespace Roster

/-- The changes that are made all or nothing; the index is the type of what
they give back. -/
inductive UnitOfWork : Type → Type
  | found (draft : TeamDraft) : UnitOfWork Team
  | enrol (invitation : Invitation) (user : Int) : UnitOfWork Member
  | dissolve (team : Int) (now : Instant) : UnitOfWork Nat
  | batch (calls : List (Except TeamError AnyCall)) : UnitOfWork (List Answer)

namespace UnitOfWork

/-- Stores a team and its owner's membership. -/
def foundTeam (draft : TeamDraft) : Work Team := do
  let team ← Work.perform (.createTeam draft)
  let _ ← Membership.addOwner team
  return team

/-- Enrols a user to the invitation's team. The room is counted here, where
nobody else can take it. -/
def enrolMember (invitation : Invitation) (user : Int) : Work Member := do
  let team ← Work.perform (.findTeam invitation.teamId)
  let team ← Work.found (.teamNotFound invitation.teamId) team
  let count ← Membership.count team.id
  Work.require (count < team.memberLimit) (.teamFull team.id team.memberLimit)
  let member ← Membership.add team.id user invitation.role
  let now ← Work.now
  let settled ← Work.perform (.settleInvitation invitation.id .accepted now)
  let _ ← Work.found (.alreadyProcessed invitation.id) settled
  return member

/-- Deletes a team and revokes its pending invitations; the number revoked. -/
def dissolveTeam (team : Int) (now : Instant) : Work Nat := do
  Work.perform (.deleteTeam team now)
  Work.perform (.revokePending team)

/-- Makes calls in order, up to the first that fails or was refused
beforehand. -/
def performAll : List (Except TeamError AnyCall) → Work (List Answer)
  | [] => pure []
  | .error e :: _ => Work.refuse e
  | .ok ⟨_, call⟩ :: rest => do
    let reply ← Work.perform call
    let answers ← performAll rest
    return .ofStore call reply :: answers

/-- The work of a unit. -/
def work : {α : Type} → UnitOfWork α → Work α
  | _, .found draft => foundTeam draft
  | _, .enrol invitation user => enrolMember invitation user
  | _, .dissolve team now => dissolveTeam team now
  | _, .batch calls => performAll calls

end UnitOfWork

end Roster
