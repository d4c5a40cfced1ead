import Roster.Error
import Roster.Role

/-!
# Log lines

`LogLine` lists what the library reports while it works: one line for each
completed change, a warning when an expiry that was noticed could not be
written, and an error for each failed statement of a database. A line has a
`level` and a `text` of `key=value` fields.
-/

namespace Roster

/-- How serious a log line is. -/
inductive LogLevel
  | info
  | warning
  | error
deriving DecidableEq, Repr

/-- The name of a level. -/
def LogLevel.name : LogLevel → String
  | .info => "INFO"
  | .warning => "WARN"
  | .error => "ERROR"

/-- What is reported. -/
inductive LogLine
  | teamCreated (team owner : Int) (slug : String)
  | teamUpdated (team requester : Int)
  | teamDeleted (team : Int) (cancelled : Nat)
  | roleUpdated (team user : Int) (role : Role) (requester : Int)
  | memberRemoved (team user requester : Int)
  | memberLeft (team user : Int)
  | invitationSent (team invitation : Int) (role : Role) (invitedBy : Int)
  | invitationAccepted (team user : Int) (role : Role)
  | invitationRejected (team invitation : Int)
  | invitationRevoked (team invitation requester : Int)
  | invitationsExpired (count : Nat)
  | expiryNotWritten (invitation : Int) (error : TeamError)
  | statementFailed (operation : String) (error : String)
deriving DecidableEq

namespace LogLine

/-- The level of a line. -/
def level : LogLine → LogLevel
  | .expiryNotWritten _ _ => .warning
  | .statementFailed _ _ => .error
  | _ => .info

/-- The text of a line. -/
def text : LogLine → String
  | .teamCreated team owner slug =>
    s!"msg=\"team created\", team_id={team}, owner_id={owner}, slug=\"{slug}\""
  | .teamUpdated team requester =>
    s!"msg=\"team updated\", team_id={team}, requester_id={requester}"
  | .teamDeleted team cancelled =>
    s!"msg=\"team deleted\", team_id={team}, cancelled_invitations={cancelled}"
  | .roleUpdated team user role requester =>
    s!"msg=\"member role updated\", team_id={team}, user_id={user}, role=\"{role.name}\", " ++
      s!"requester_id={requester}"
  | .memberRemoved team user requester =>
    s!"msg=\"member removed\", team_id={team}, user_id={user}, requester_id={requester}"
  | .memberLeft team user =>
    s!"msg=\"member left\", team_id={team}, user_id={user}"
  | .invitationSent team invitation role invitedBy =>
    s!"msg=\"invitation sent\", team_id={team}, invitation_id={invitation}, " ++
      s!"role=\"{role.name}\", invited_by={invitedBy}"
  | .invitationAccepted team user role =>
    s!"msg=\"invitation accepted\", team_id={team}, user_id={user}, role=\"{role.name}\""
  | .invitationRejected team invitation =>
    s!"msg=\"invitation rejected\", team_id={team}, invitation_id={invitation}"
  | .invitationRevoked team invitation requester =>
    s!"msg=\"invitation revoked\", team_id={team}, invitation_id={invitation}, " ++
      s!"requester_id={requester}"
  | .invitationsExpired count =>
    s!"msg=\"stale invitations expired\", count={count}"
  | .expiryNotWritten invitation error =>
    s!"msg=\"failed to mark invitation expired\", invitation_id={invitation}, " ++
      s!"error=\"{error.message}\""
  | .statementFailed operation error =>
    s!"msg=\"database error\", operation=\"{operation}\", error=\"{error}\""

/-- A line as it is written: level, then text. -/
def written (line : LogLine) : String :=
  line.level.name ++ " " ++ line.text

end LogLine

end Roster
