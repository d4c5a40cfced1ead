import Roster.Error
import Roster.Time.Instant

/-!
# Teams

A `Team` is a named space with one owner and a bounded number of members. A
deleted team keeps its record.

* `Team.rename`, `Team.describe`, `Team.setVisibility`, `Team.setMemberLimit`,
  `Team.markDeleted` — the changes a team goes through, each of which stamps
  the time of the change;
* `TeamEdit` — these changes as data, applied by `Team.edit`.
-/

namespace Roster

/-- Who can see a team. -/
inductive Visibility
  | everyone
  | membersOnly
deriving DecidableEq, Repr

namespace Visibility

/-- The name under which a visibility is stored. -/
def name : Visibility → String
  | .everyone => "public"
  | .membersOnly => "private"

/-- The visibility of a stored name. -/
def ofName? : String → Option Visibility
  | "public" => some .everyone
  | "private" => some .membersOnly
  | _ => none

theorem ofName_name (visibility : Visibility) : ofName? visibility.name = some visibility := by
  cases visibility <;> rfl

end Visibility

/-- Whether a team is in use. -/
inductive TeamStatus
  | active
  | deleted
deriving DecidableEq, Repr

namespace TeamStatus

/-- The name under which a status is stored. -/
def name : TeamStatus → String
  | .active => "active"
  | .deleted => "deleted"

/-- The status of a stored name. -/
def ofName? : String → Option TeamStatus
  | "active" => some .active
  | "deleted" => some .deleted
  | _ => none

theorem ofName_name (status : TeamStatus) : ofName? status.name = some status := by
  cases status <;> rfl

end TeamStatus

/-- A team. `slug` is derived from `name` and is unique among the owner's
active teams; `memberLimit` counts the owner in. -/
structure Team where
  id : Int
  ownerId : Int
  name : String
  slug : String
  description : Option String
  visibility : Visibility
  memberLimit : UInt32
  status : TeamStatus
  createdAt : Instant
  updatedAt : Instant
deriving DecidableEq

/-- A team that is about to be stored. -/
structure TeamDraft where
  ownerId : Int
  name : String
  slug : String
  description : Option String
  visibility : Visibility
  memberLimit : UInt32
  createdAt : Instant

namespace Team

/-- The wording for a member limit of zero. -/
def limitTooSmall : String := "member limit must be at least 1"

/-- Whether the team is in use. -/
def isActive (team : Team) : Bool :=
  team.status = .active

/-- Renames the team and derives its slug anew. -/
def rename (team : Team) (name : String) (now : Instant) : Team :=
  { team with name, slug := slugify name, updatedAt := now }

/-- Sets or clears the description. -/
def describe (team : Team) (description : Option String) (now : Instant) : Team :=
  { team with description, updatedAt := now }

/-- Sets the visibility. -/
def setVisibility (team : Team) (visibility : Visibility) (now : Instant) : Team :=
  { team with visibility, updatedAt := now }

/-- Sets the member limit, which cannot be zero. -/
def setMemberLimit (team : Team) (limit : UInt32) (now : Instant) : Except TeamError Team :=
  if limit = 0 then .error (.invalid limitTooSmall)
  else .ok { team with memberLimit := limit, updatedAt := now }

/-- Marks the team as deleted. -/
def markDeleted (team : Team) (now : Instant) : Team :=
  { team with status := .deleted, updatedAt := now }

end Team

/-- One change of a team. -/
inductive TeamEdit
  | rename (name : String)
  | describe (description : Option String)
  | setVisibility (visibility : Visibility)
  | setMemberLimit (limit : UInt32)
  | markDeleted

namespace Team

/-- Applies one change at a time. -/
def edit (team : Team) (now : Instant) : TeamEdit → Except TeamError Team
  | .rename name => .ok (team.rename name now)
  | .describe description => .ok (team.describe description now)
  | .setVisibility visibility => .ok (team.setVisibility visibility now)
  | .setMemberLimit limit => team.setMemberLimit limit now
  | .markDeleted => .ok (team.markDeleted now)

/-- Applies changes in order, passing over those that are refused: what came of
each with the team after it, and the team at the end. -/
def editAll (team : Team) :
    List (TeamEdit × Instant) → List (Except TeamError Unit × Team) × Team
  | [] => ([], team)
  | (change, now) :: rest =>
    match team.edit now change with
    | .ok edited =>
      let (results, last) := edited.editAll rest
      ((.ok (), edited) :: results, last)
    | .error e =>
      let (results, last) := team.editAll rest
      ((.error e, team) :: results, last)

end Team

end Roster
