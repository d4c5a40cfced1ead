import Roster.Error
import Roster.Log

/-!
# Constraints of the database schema

`Constraint` lists the rules of the schema that a statement can break. A broken
rule is reported with a code and a text; a statement that fails for it is also
logged, under the name of the operation.
-/

namespace Roster

/-- The rules that a statement can break. -/
inductive Constraint
  /-- A member limit is at least one. -/
  | positiveLimit
  /-- A member or an invitation belongs to a stored team. -/
  | teamExists
  /-- No two users have one e-mail address. -/
  | uniqueUserEmail
  /-- No two active teams of an owner have one slug. -/
  | uniqueActiveSlug
  /-- No two pending invitations of a team have one address. -/
  | uniquePendingEmail
deriving DecidableEq

namespace Constraint

/-- The code of a violation. -/
def code : Constraint → Nat
  | .positiveLimit => 275
  | .teamExists => 787
  | _ => 2067

/-- What a violation says. -/
def violation : Constraint → String
  | .positiveLimit => "CHECK constraint failed: member_limit >= 1"
  | .teamExists => "FOREIGN KEY constraint failed"
  | .uniqueUserEmail => "UNIQUE constraint failed: users.email"
  | .uniqueActiveSlug => "UNIQUE constraint failed: teams.owner_id, teams.slug"
  | .uniquePendingEmail =>
    "UNIQUE constraint failed: team_invitations.team_id, team_invitations.email"

/-- The report of a violation. -/
def report (constraint : Constraint) : String :=
  s!"error returned from database: (code: {constraint.code}) {constraint.violation}"

/-- The failure of a statement that breaks the rule. -/
def error (constraint : Constraint) : TeamError :=
  .database constraint.report

/-- The log line of an operation that fails for the rule. -/
def logLine (constraint : Constraint) (operation : String) : LogLine :=
  .statementFailed operation constraint.report

end Constraint

end Roster
