import Roster.Input
import Roster.Role
import Roster.Time.Instant
import Roster.Token.Basic

/-!
# Invitations

An invitation offers an e-mail address membership of a team at a role. It
starts `pending`, and every other status is terminal.

* `Invitation.isFor` — whether an address is the addressee's;
* `Invitation.isExpiredAt` — whether the expiry lies in the past;
* `InvitationView` — an invitation as listings show it;
* `SentInvitation` — an invitation with the token to deliver.
-/

namespace Roster

/-- Where an invitation stands. -/
inductive InvitationStatus
  | pending
  | accepted
  | rejected
  | revoked
  | expired
deriving DecidableEq, Repr

namespace InvitationStatus

/-- The name under which a status is stored. -/
def name : InvitationStatus → String
  | .pending => "pending"
  | .accepted => "accepted"
  | .rejected => "rejected"
  | .revoked => "revoked"
  | .expired => "expired"

/-- The status of a stored name. -/
def ofName? : String → Option InvitationStatus
  | "pending" => some .pending
  | "accepted" => some .accepted
  | "rejected" => some .rejected
  | "revoked" => some .revoked
  | "expired" => some .expired
  | _ => none

/-- Whether no step leads on from a status. -/
def isTerminal (status : InvitationStatus) : Bool :=
  status ≠ .pending

theorem ofName_name (status : InvitationStatus) : ofName? status.name = some status := by
  cases status <;> rfl

end InvitationStatus

/-- An invitation. `email` is normalized; `inviteeId` is the user who had that
address when it was sent; `tokenHash` is the digest of its token. -/
structure Invitation where
  id : Int
  teamId : Int
  invitedBy : Int
  email : String
  inviteeId : Option Int
  role : Role
  tokenHash : String
  status : InvitationStatus
  expiresAt : Instant
  createdAt : Instant
  acceptedAt : Option Instant
deriving DecidableEq

/-- An invitation that is about to be stored. -/
structure InvitationDraft where
  teamId : Int
  invitedBy : Int
  email : String
  inviteeId : Option Int
  role : Role
  tokenHash : String
  expiresAt : Instant
  createdAt : Instant

/-- The pending invitation that a draft becomes under an id. -/
def InvitationDraft.invitation (draft : InvitationDraft) (id : Int) : Invitation :=
  { id
    teamId := draft.teamId
    invitedBy := draft.invitedBy
    email := draft.email
    inviteeId := draft.inviteeId
    role := draft.role
    tokenHash := draft.tokenHash
    status := .pending
    expiresAt := draft.expiresAt
    createdAt := draft.createdAt
    acceptedAt := none }

namespace Invitation

/-- Whether the invitation still waits for an answer. -/
def isPending (invitation : Invitation) : Bool :=
  invitation.status = .pending

/-- Whether the expiry lies before `now`, whatever the stored status. -/
def isExpiredAt (invitation : Invitation) (now : Instant) : Bool :=
  invitation.expiresAt < now

/-- Whether an address, up to blanks around it and the case of ASCII letters,
is the addressee's. -/
def isFor (invitation : Invitation) (email : String) : Bool :=
  Email.sameIgnoringCase invitation.email.toList (Text.trim email.toList)

/-- The invitation moved to a status; only acceptance is dated. -/
def settle (invitation : Invitation) (status : InvitationStatus) (now : Instant) : Invitation :=
  { invitation with
    status
    acceptedAt := if status = .accepted then some now else invitation.acceptedAt }

end Invitation

/-- An invitation in a listing, marked when it is pending past its expiry. -/
structure InvitationView where
  invitation : Invitation
  isExpired : Bool
deriving DecidableEq

/-- The view of an invitation at a time. -/
def InvitationView.of (invitation : Invitation) (now : Instant) : InvitationView :=
  ⟨invitation, invitation.isPending && invitation.isExpiredAt now⟩

/-- An issued invitation. The token is shown here once; only its digest is
stored. -/
structure SentInvitation where
  invitation : Invitation
  token : Secret
  acceptUrl : Option Secret
deriving DecidableEq

end Roster
