import Roster.Invitation
import Roster.Member
import Roster.Record.Json
import Roster.Team
import Roster.Time.Text

/-!
# Records as JSON

Each record has a pair of functions: `toJson` writes it, `ofJson?` reads it.

* Reading asks for every field with its right type and range, except that
  `description`, `invitee_user_id` and `accepted_at` may be absent or null;
  fields it does not know are ignored, and values are not checked otherwise.
* Enumerations are written by name; instants as RFC 3339 text in UTC.
* An invitation is written without its `token_hash`, which reading requires.
-/

namespace Roster

open Json (required optional ofOption)

/-! ## Plain values -/

/-- Writes an instant. -/
def Instant.toJson (t : Instant) : Json :=
  .text t.text

/-- Reads an instant. -/
def Instant.ofJson? (value : Json) : Option Instant :=
  value.text?.bind fun text => Instant.ofText? text.toList

/-- Writes a role. -/
def Role.toJson (role : Role) : Json :=
  .text role.name

/-- Reads a role. -/
def Role.ofJson? (value : Json) : Option Role :=
  value.tag?.bind Role.ofName?

/-- Writes a permission. -/
def Permission.toJson (permission : Permission) : Json :=
  .text permission.name

/-- Reads a permission. -/
def Permission.ofJson? (value : Json) : Option Permission :=
  value.tag?.bind Permission.ofName?

/-- Writes a visibility. -/
def Visibility.toJson (visibility : Visibility) : Json :=
  .text visibility.name

/-- Reads a visibility. -/
def Visibility.ofJson? (value : Json) : Option Visibility :=
  value.tag?.bind Visibility.ofName?

/-- Writes the status of a team. -/
def TeamStatus.toJson (status : TeamStatus) : Json :=
  .text status.name

/-- Reads the status of a team. -/
def TeamStatus.ofJson? (value : Json) : Option TeamStatus :=
  value.tag?.bind TeamStatus.ofName?

/-- Writes the status of an invitation. -/
def InvitationStatus.toJson (status : InvitationStatus) : Json :=
  .text status.name

/-- Reads the status of an invitation. -/
def InvitationStatus.ofJson? (value : Json) : Option InvitationStatus :=
  value.tag?.bind InvitationStatus.ofName?

/-! ## Records -/

namespace Team

/-- The fields of a team, in order. -/
def fieldNames : List String :=
  ["id", "owner_id", "name", "slug", "description", "visibility", "member_limit", "status",
   "created_at", "updated_at"]

/-- The written fields of a team. -/
def toFields (team : Team) : List (String × Json) :=
  [("id", .int team.id), ("owner_id", .int team.ownerId), ("name", .text team.name),
   ("slug", .text team.slug), ("description", ofOption .text team.description),
   ("visibility", team.visibility.toJson), ("member_limit", .int team.memberLimit.toNat),
   ("status", team.status.toJson), ("created_at", team.createdAt.toJson),
   ("updated_at", team.updatedAt.toJson)]

/-- Writes a team. -/
def toJson (team : Team) : Json :=
  .object team.toFields

/-- Reads a team. -/
def ofJson? (value : Json) : Option Team := do
  let field ← value.fields? fieldNames
  return { id := ← required field "id" Json.id?
           ownerId := ← required field "owner_id" Json.id?
           name := ← required field "name" Json.text?
           slug := ← required field "slug" Json.text?
           description := ← optional field "description" Json.text?
           visibility := ← required field "visibility" Visibility.ofJson?
           memberLimit := ← required field "member_limit" Json.word?
           status := ← required field "status" TeamStatus.ofJson?
           createdAt := ← required field "created_at" Instant.ofJson?
           updatedAt := ← required field "updated_at" Instant.ofJson? }

end Team

namespace Member

/-- The fields of a member, in order. -/
def fieldNames : List String :=
  ["team_id", "user_id", "role", "joined_at", "updated_at"]

/-- The written fields of a member. -/
def toFields (member : Member) : List (String × Json) :=
  [("team_id", .int member.teamId), ("user_id", .int member.userId),
   ("role", member.role.toJson), ("joined_at", member.joinedAt.toJson),
   ("updated_at", member.updatedAt.toJson)]

/-- Writes a member. -/
def toJson (member : Member) : Json :=
  .object member.toFields

/-- Reads a member from its fields, the role by `tag`. -/
def ofFields? (tag : Json → Option String) (field : String → Option Json) : Option Member := do
  return { teamId := ← required field "team_id" Json.id?
           userId := ← required field "user_id" Json.id?
           role := ← required field "role" fun value => (tag value).bind Role.ofName?
           joinedAt := ← required field "joined_at" Instant.ofJson?
           updatedAt := ← required field "updated_at" Instant.ofJson? }

/-- Reads a member. -/
def ofJson? (value : Json) : Option Member := do
  let field ← value.fields? fieldNames
  ofFields? Json.tag? field

end Member

namespace MemberProfile

/-- Writes a member together with the details of the user, in one object. -/
def toJson (profile : MemberProfile) : Json :=
  .object (profile.member.toFields ++
    [("email", .text profile.email), ("name", .text profile.name)])

/-- Reads a member together with the details of the user; only from an
object. -/
def ofJson? (value : Json) : Option MemberProfile := do
  match value with
  | .object fields =>
    let field := (fields.lookup ·)
    return { member := ← Member.ofFields? Json.sharedTag? field
             email := ← required field "email" Json.text?
             name := ← required field "name" Json.text? }
  | _ => none

end MemberProfile

namespace User

/-- The fields of a user, in order. -/
def fieldNames : List String :=
  ["id", "email", "name"]

/-- Writes a user. -/
def toJson (user : User) : Json :=
  .object [("id", .int user.id), ("email", .text user.email), ("name", .text user.name)]

/-- Reads a user. -/
def ofJson? (value : Json) : Option User := do
  let field ← value.fields? fieldNames
  return { id := ← required field "id" Json.id?
           email := ← required field "email" Json.text?
           name := ← required field "name" Json.text? }

end User

namespace Invitation

/-- The fields of an invitation, in order. -/
def fieldNames : List String :=
  ["id", "team_id", "invited_by", "email", "invitee_user_id", "role", "token_hash", "status",
   "expires_at", "created_at", "accepted_at"]

/-- The written fields of an invitation: all but the token's digest. -/
def toFields (invitation : Invitation) : List (String × Json) :=
  [("id", .int invitation.id), ("team_id", .int invitation.teamId),
   ("invited_by", .int invitation.invitedBy), ("email", .text invitation.email),
   ("invitee_user_id", ofOption .int invitation.inviteeId), ("role", invitation.role.toJson),
   ("status", invitation.status.toJson), ("expires_at", invitation.expiresAt.toJson),
   ("created_at", invitation.createdAt.toJson),
   ("accepted_at", ofOption Instant.toJson invitation.acceptedAt)]

/-- Writes an invitation, without the token's digest. -/
def toJson (invitation : Invitation) : Json :=
  .object invitation.toFields

/-- The field of the token's digest. -/
def hashField (invitation : Invitation) : String × Json :=
  ("token_hash", .text invitation.tokenHash)

/-- Writes an invitation together with the token's digest, as its store sees
it. -/
def toStoredJson (invitation : Invitation) : Json :=
  .object (invitation.hashField :: invitation.toFields)

/-- Reads an invitation, token digest included. -/
def ofJson? (value : Json) : Option Invitation := do
  let field ← value.fields? fieldNames
  return { id := ← required field "id" Json.id?
           teamId := ← required field "team_id" Json.id?
           invitedBy := ← required field "invited_by" Json.id?
           email := ← required field "email" Json.text?
           inviteeId := ← optional field "invitee_user_id" Json.id?
           role := ← required field "role" Role.ofJson?
           tokenHash := ← required field "token_hash" Json.text?
           status := ← required field "status" InvitationStatus.ofJson?
           expiresAt := ← required field "expires_at" Instant.ofJson?
           createdAt := ← required field "created_at" Instant.ofJson?
           acceptedAt := ← optional field "accepted_at" Instant.ofJson? }

end Invitation

/-- Writes an invitation as listings show it. -/
def InvitationView.toJson (view : InvitationView) : Json :=
  .object (view.invitation.toFields ++ [("is_expired", .bool view.isExpired)])

end Roster
