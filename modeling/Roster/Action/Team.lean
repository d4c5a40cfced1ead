import Roster.Config
import Roster.Program

/-!
# Actions on teams

* `createTeam` — a team with its creator as owner;
* `updateTeam` — a partial change by an owner or admin;
* `deleteTeam` — by the owner, with the pending invitations revoked;
* `getTeam`, `listMyTeams` — what members see.

A team that is missing or deleted is not found, whoever asks.
-/

namespace Roster

/-- What a new team is made from. -/
structure CreateTeam where
  ownerId : Int
  name : String
  description : Option String
  visibility : Visibility
  memberLimit : Option UInt32

/-- A partial change of a team: `none` leaves a field alone, and
`description := some none` clears the description. -/
structure UpdateTeam where
  teamId : Int
  requesterId : Int
  name : Option String
  description : Option (Option String)
  visibility : Option Visibility
  memberLimit : Option UInt32

/-- The active team of an id. -/
def requireTeam (team : Int) : Work Team := do
  let found ← Work.perform (.findTeam team)
  Work.found (.teamNotFound team) found

/-- Creates a team and its owner's membership together. -/
def createTeam (config : Config) (input : CreateTeam) : Program Team := do
  let name ← Work.ofInput (TeamName.validate input.name)
  let slug := slugify name
  let memberLimit := input.memberLimit.getD config.defaultMemberLimit
  Work.require (memberLimit ≠ 0) (.invalid Team.limitTooSmall)
  -- the store decides when several creators race for the slug
  let other ← Work.perform (.findTeamBySlug input.ownerId slug)
  Work.require other.isNone (.slugTaken slug)
  let now ← Work.now
  let team ← Program.atomically (.found
    { ownerId := input.ownerId
      name
      slug
      description := input.description
      visibility := input.visibility
      memberLimit
      createdAt := now })
  Program.log (.teamCreated team.id team.ownerId team.slug)
  return team

namespace UpdateTeam

/-- Renames the team if a name is given; the slug must stay unique among the
owner's active teams. -/
def applyName (team : Team) (now : Instant) : Option String → Work Team
  | none => pure team
  | some name => do
    let name ← Work.ofInput (TeamName.validate name)
    let renamed := team.rename name now
    let other ← Work.perform (.findTeamBySlug renamed.ownerId renamed.slug)
    Work.require (other.all (·.id = renamed.id)) (.slugTaken renamed.slug)
    return renamed

/-- Sets or clears the description if that is asked for. -/
def applyDescription (team : Team) (now : Instant) : Option (Option String) → Team
  | none => team
  | some description => team.describe description now

/-- Sets the visibility if one is given. -/
def applyVisibility (team : Team) (now : Instant) : Option Visibility → Team
  | none => team
  | some visibility => team.setVisibility visibility now

/-- Sets the member limit if one is given; it cannot be below the number of
members. -/
def applyLimit (team : Team) (now : Instant) : Option UInt32 → Work Team
  | none => pure team
  | some limit => do
    let current ← Membership.count team.id
    Work.require (current ≤ limit)
      (.invalid s!"member limit {limit} is below the current member count {current}")
    match team.setMemberLimit limit now with
    | .ok limited => pure limited
    | .error e => Work.refuse e

/-- Checks and stores the change. -/
def apply (input : UpdateTeam) : Work Team := do
  let team ← requireTeam input.teamId
  let _ ← Membership.require team.id input.requesterId .updateTeam
  let now ← Work.now
  let team ← applyName team now input.name
  let team := applyDescription team now input.description
  let team := applyVisibility team now input.visibility
  let team ← applyLimit team now input.memberLimit
  Work.perform (.updateTeam team)

end UpdateTeam

/-- Changes the given fields of a team. -/
def updateTeam (input : UpdateTeam) : Program Team := do
  let team ← input.apply
  Program.log (.teamUpdated team.id input.requesterId)
  return team

/-- Deletes a team; the number of pending invitations revoked with it. -/
def deleteTeam (team requester : Int) : Program Nat := do
  let found ← requireTeam team
  let member ← Work.perform (.findMember found.id requester)
  let member ← Work.found .permissionDenied member
  Work.require (member.role.allows .deleteTeam) .onlyOwnerDeletes
  let now ← Work.now
  let cancelled ← Program.atomically (.dissolve team now)
  Program.log (.teamDeleted team cancelled)
  return cancelled

/-- Reads a team on behalf of a member. -/
def getTeam (team requester : Int) : Program Team := do
  let found ← requireTeam team
  let _ ← Membership.require found.id requester .view
  return found

/-- Looks the reader's role up in each team; a team that was left in between is
dropped. -/
def withRoles (user : Int) : List Team → Work (List MyTeam)
  | [] => pure []
  | team :: rest => do
    let member ← Work.perform (.findMember team.id user)
    let listed ← withRoles user rest
    return match member with
      | some member => ⟨team, member.role⟩ :: listed
      | none => listed

/-- A page of the active teams of a user, newest first, with the user's
roles. -/
def listMyTeams (user : Int) (page : Page) : Program (List MyTeam) := do
  let teams ← Work.perform (.listTeamsOf user page)
  withRoles user teams

end Roster
