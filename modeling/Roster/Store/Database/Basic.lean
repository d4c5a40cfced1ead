import Roster.Store.Database.Constraint
import Roster.Store.Database.Row

/-!
# The store kept in a database

`Database` holds rows under a schema with constraints, and answers the same
calls as the tables in memory, by statements.

* Checks of a column come before uniqueness, and references to a team come
  last. A violation that callers know how to name becomes that failure; any
  other is logged and reported as it is.
* Instants are stored as text, and statements compare that text.
* A statement that changed a row and returns it may fail to read the row; the
  change stays.
* `Database.overwrite` writes one column directly, as no call does.
-/

namespace Roster

/-- The rows of a database, and the last id that each table gave out. -/
structure Database where
  users : List User
  teams : List TeamRow
  members : List MemberRow
  invitations : List InvitationRow
  lastUserId : Int
  lastTeamId : Int
  lastInvitationId : Int
deriving DecidableEq

namespace Database

/-- The schema without rows. -/
def empty : Database :=
  { users := [], teams := [], members := [], invitations := []
    lastUserId := 0, lastTeamId := 0, lastInvitationId := 0 }

/-- The steps that set up the schema, in order. -/
def schemaSteps : List String :=
  ["20260101000001_create_users_table", "20260101000002_create_teams_table",
   "20260101000003_create_team_members_table", "20260101000004_create_team_invitations_table"]

/-! ## Outcomes of statements -/

/-- A statement that worked. -/
def done {α : Type} (db : Database) (reply : α) : Outcome Database α :=
  ⟨.ok reply, [], db⟩

/-- A statement that failed for a reason callers know. -/
def refuse {α : Type} (db : Database) (e : TeamError) : Outcome Database α :=
  ⟨.error e, [], db⟩

/-- A statement that broke a rule of the schema. -/
def violate {α : Type} (db : Database) (constraint : Constraint) (operation : String) :
    Outcome Database α :=
  ⟨.error constraint.error, [constraint.logLine operation], db⟩

/-- A statement whose result still has to be read. -/
def answer {α : Type} (db : Database) (result : Except TeamError α) : Outcome Database α :=
  ⟨result, [], db⟩

/-- Reads the row found, if there is one. -/
def readFound {ρ α : Type} (read : ρ → Except TeamError α) : Option ρ → Except TeamError (Option α)
  | none => .ok none
  | some row => (read row).map some

/-- Reads rows in order, up to the first that has no meaning. -/
def readAll {ρ α : Type} (read : ρ → Except TeamError α) : List ρ → Except TeamError (List α)
  | [] => .ok []
  | row :: rest => do
    let record ← read row
    let records ← readAll read rest
    return record :: records

/-! ## Orders by stored text -/

/-- Whether the stored text of one instant comes before that of another. -/
def textBefore (a b : Instant) : Bool :=
  a.storedText < b.storedText

/-- Newest first, then the later id. -/
def newer (createdA createdB : Instant) (idA idB : Int) : Bool :=
  textBefore createdB createdA || (createdA.storedText = createdB.storedText && idB ≤ idA)

/-- In the order of joining, then the lower user id. -/
def earlierMember (a b : MemberRow) : Bool :=
  textBefore a.joinedAt b.joinedAt ||
    (a.joinedAt.storedText = b.joinedAt.storedText && a.userId ≤ b.userId)

/-! ## Teams -/

/-- Whether an active team of the owner, other than `except`, has the slug. -/
def slugInUse (db : Database) (owner : Int) (slug : String) (except : Option Int) : Bool :=
  db.teams.any fun t => t.isActive && t.ownerId = owner && t.slug = slug && some t.id ≠ except

/-- The row of an active team. -/
def activeTeam (db : Database) (team : Int) : Option TeamRow :=
  db.teams.find? fun t => t.id = team && t.isActive

/-- Replaces the row of a team. -/
def putTeam (db : Database) (row : TeamRow) : Database :=
  { db with teams := db.teams.map fun t => if t.id = row.id then row else t }

/-- Inserts a team under the next id. -/
def createTeam (db : Database) (draft : TeamDraft) : Outcome Database Team :=
  if draft.memberLimit = 0 then db.violate .positiveLimit "create_team"
  else if db.slugInUse draft.ownerId draft.slug none then db.refuse (.slugTaken draft.slug)
  else
    let row : TeamRow :=
      { id := db.lastTeamId + 1
        ownerId := draft.ownerId
        name := draft.name
        slug := draft.slug
        description := draft.description
        visibility := draft.visibility.name
        memberLimit := draft.memberLimit.toNat
        status := TeamStatus.active.name
        createdAt := draft.createdAt
        updatedAt := draft.createdAt }
    let next : Database := { db with teams := db.teams ++ [row], lastTeamId := row.id }
    next.answer row.read

/-- A page of the active teams of a user, newest first. -/
def listTeamsOf (db : Database) (user : Int) (page : Page) : Except TeamError (List Team) :=
  readAll TeamRow.read (page.slice ((db.teams.filter fun t =>
    t.isActive && db.members.any (·.isOf t.id user)).mergeSort
      fun a b => newer a.createdAt b.createdAt a.id b.id))

/-- Writes the changeable columns of an active team. -/
def updateTeam (db : Database) (team : Team) : Outcome Database Team :=
  match db.activeTeam team.id with
  | none => db.refuse (.teamNotFound team.id)
  | some row =>
    if team.memberLimit = 0 then db.violate .positiveLimit "update_team"
    else if db.slugInUse row.ownerId team.slug (some team.id) then db.refuse (.slugTaken team.slug)
    else
      let changed : TeamRow :=
        { row with
          name := team.name
          slug := team.slug
          description := team.description
          visibility := team.visibility.name
          memberLimit := team.memberLimit.toNat
          updatedAt := team.updatedAt }
      (db.putTeam changed).answer changed.read

/-- Marks an active team as deleted. -/
def deleteTeam (db : Database) (team : Int) (now : Instant) : Outcome Database Unit :=
  match db.activeTeam team with
  | none => db.refuse (.teamNotFound team)
  | some row => (db.putTeam { row with status := TeamStatus.deleted.name, updatedAt := now }).done ()

/-! ## Members -/

/-- The row of a member. -/
def memberRow (db : Database) (team user : Int) : Option MemberRow :=
  db.members.find? (·.isOf team user)

/-- Whether a team is stored, in use or not. -/
def hasTeam (db : Database) (team : Int) : Bool :=
  db.teams.any (·.id = team)

/-- Inserts a member. -/
def addMember (db : Database) (draft : MemberDraft) : Outcome Database Member :=
  if (db.memberRow draft.teamId draft.userId).isSome then db.refuse (.alreadyMember draft.teamId)
  else if !db.hasTeam draft.teamId then db.violate .teamExists "add_member"
  else
    let row := MemberRow.of draft.member
    let next : Database :=
      { db with
        members := insertBefore (fun a b => keyBefore a.teamId a.userId b.teamId b.userId)
          row db.members }
    next.answer row.read

/-- The rows of a team's members in the order of joining. -/
def membersOf (db : Database) (team : Int) : List MemberRow :=
  (db.members.filter fun m => m.teamId = team).mergeSort earlierMember

/-- The user of an id. -/
def findUser (db : Database) (user : Int) : Option User :=
  db.users.find? fun u => u.id = user

/-- The members of a team that the directory knows, with their details. -/
def listProfiles (db : Database) (team : Int) : Except TeamError (List MemberProfile) :=
  let joined := (db.membersOf team).filterMap fun m => (db.findUser m.userId).map fun u => (m, u)
  readAll (fun (m, u) => m.read.map fun member => ⟨member, u.email, u.name⟩) joined

/-- Changes the role of a member. -/
def setRole (db : Database) (team user : Int) (role : Role) (now : Instant) :
    Outcome Database Member :=
  match db.memberRow team user with
  | none => db.refuse (.memberNotFound team user)
  | some row =>
    let changed : MemberRow := { row with role := role.name, updatedAt := now }
    let next : Database :=
      { db with members := db.members.map fun m => if m.isOf team user then changed else m }
    next.answer changed.read

/-- Removes a member. -/
def removeMember (db : Database) (team user : Int) : Outcome Database Unit :=
  match db.memberRow team user with
  | none => db.refuse (.memberNotFound team user)
  | some _ => { db with members := db.members.filter fun m => !m.isOf team user }.done ()

/-- The number of members of a team. -/
def countMembers (db : Database) (team : Int) : Except TeamError UInt32 :=
  let count := db.members.countP fun m => m.teamId = team
  if count ≤ maxCount then .ok (UInt32.ofNat count)
  else .error (.database s!"invalid member count {count}")

/-! ## Invitations -/

/-- Inserts a pending invitation under the next id. -/
def createInvitation (db : Database) (draft : InvitationDraft) : Outcome Database Invitation :=
  if db.invitations.any fun i =>
      i.teamId = draft.teamId && i.isPending && i.email = draft.email then
    db.refuse (.alreadyInvited draft.teamId)
  else if db.invitations.any fun i => i.tokenHash = draft.tokenHash then
    db.refuse (.internal "duplicate invitation token")
  else if !db.hasTeam draft.teamId then db.violate .teamExists "create_invitation"
  else
    let row := InvitationRow.of (draft.invitation (db.lastInvitationId + 1))
    let next : Database :=
      { db with invitations := db.invitations ++ [row], lastInvitationId := row.id }
    next.answer row.read

/-- The first invitation whose row satisfies `p`. -/
def findInvitation (db : Database) (p : InvitationRow → Bool) :
    Except TeamError (Option Invitation) :=
  readFound InvitationRow.read (db.invitations.find? p)

/-- A page of the invitations whose rows satisfy `p` and have the status, if
one is given, newest first. -/
def listInvitations (db : Database) (p : InvitationRow → Bool) (status : Option InvitationStatus)
    (page : Page) : Except TeamError (List Invitation) :=
  readAll InvitationRow.read (page.slice ((db.invitations.filter fun i =>
    p i && status.all (i.status = ·.name)).mergeSort
      fun a b => newer a.createdAt b.createdAt a.id b.id))

/-- Moves a pending invitation to a status; `none` if it is no longer
pending. -/
def settleInvitation (db : Database) (invitation : Int) (status : InvitationStatus)
    (now : Instant) : Outcome Database (Option Invitation) :=
  match db.invitations.find? fun i => i.id = invitation with
  | none => db.refuse .invitationNotFound
  | some row =>
    if row.isPending then
      let settled : InvitationRow :=
        { row with
          status := status.name
          acceptedAt := if status = .accepted then some now else row.acceptedAt }
      let next : Database :=
        { db with
          invitations := db.invitations.map fun i => if i.id = invitation then settled else i }
      next.answer (settled.read.map some)
    else db.done none

/-- Moves every pending invitation whose row satisfies `p` to a status, and
counts them. -/
def settleAll (db : Database) (p : InvitationRow → Bool) (status : InvitationStatus) :
    Outcome Database Nat :=
  let moves := fun i : InvitationRow => i.isPending && p i
  let next : Database :=
    { db with
      invitations := db.invitations.map fun i =>
        if moves i then { i with status := status.name } else i }
  next.done (db.invitations.countP moves)

/-- Whether a row belongs to a team, or to any if none is given. -/
def ofTeam (team : Option Int) (row : InvitationRow) : Bool :=
  team.all (row.teamId = ·)

/-! ## Users -/

/-- Adds a user to the directory, with the address normalized. -/
def insertUser (db : Database) (email name : String) : Outcome Database User :=
  let user : User := ⟨db.lastUserId + 1, Email.normalize email, name⟩
  if db.users.any fun u => u.email = user.email then db.violate .uniqueUserEmail "insert_user"
  else { db with users := db.users ++ [user], lastUserId := user.id }.done user

/-- The user with an address. -/
def findUserByEmail (db : Database) (email : String) : Option User :=
  db.users.find? fun u => u.email = Email.normalize email

/-! ## The store -/

/-- Answers any call. -/
def perform (db : Database) : {α : Type} → StoreCall α → Outcome Database α
  | _, .createTeam draft => db.createTeam draft
  | _, .findTeam team => db.answer (readFound TeamRow.read (db.activeTeam team))
  | _, .findTeamBySlug owner slug =>
    db.answer (readFound TeamRow.read
      (db.teams.find? fun t => t.isActive && t.ownerId = owner && t.slug = slug))
  | _, .listTeamsOf user page => db.answer (db.listTeamsOf user page)
  | _, .updateTeam team => db.updateTeam team
  | _, .deleteTeam team now => db.deleteTeam team now
  | _, .addMember draft => db.addMember draft
  | _, .findMember team user => db.answer (readFound MemberRow.read (db.memberRow team user))
  | _, .listMembers team => db.answer (readAll MemberRow.read (db.membersOf team))
  | _, .listProfiles team => db.answer (db.listProfiles team)
  | _, .setRole team user role now => db.setRole team user role now
  | _, .removeMember team user => db.removeMember team user
  | _, .countMembers team => db.answer (db.countMembers team)
  | _, .createInvitation draft => db.createInvitation draft
  | _, .findInvitation invitation => db.answer (db.findInvitation fun i => i.id = invitation)
  | _, .findInvitationByToken tokenHash =>
    db.answer (db.findInvitation fun i => i.tokenHash = tokenHash)
  | _, .findPendingInvitation team email =>
    db.answer (db.findInvitation fun i => i.teamId = team && i.isPending && i.email = email)
  | _, .listInvitationsOf team status page =>
    db.answer (db.listInvitations (fun i => i.teamId = team) status page)
  | _, .listInvitationsTo email status page =>
    db.answer (db.listInvitations (fun i => i.email = email) status page)
  | _, .settleInvitation invitation status now => db.settleInvitation invitation status now
  | _, .revokePending team => db.settleAll (fun i => i.teamId = team) .revoked
  | _, .expireStale team now => db.settleAll (fun i => ofTeam team i && textBefore i.expiresAt now) .expired

instance : Store Database where
  empty := empty
  perform call db := db.perform call
  insertUser email name db := db.insertUser email name
  findUser user db := db.findUser user
  findUserByEmail email db := db.findUserByEmail email
  keepsOpen := false

/-! ## Direct writes -/

/-- A value for one column of one row. -/
inductive ColumnWrite
  | memberRole (team user : Int) (value : String)
  | invitationRole (invitation : Int) (value : String)
  | invitationStatus (invitation : Int) (value : String)
  | teamVisibility (team : Int) (value : String)
  | teamStatus (team : Int) (value : String)
  | teamMemberLimit (team : Int) (value : Int)

/-- Changes the rows that satisfy `p`, and counts them. -/
def changeRows {ρ : Type} (p : ρ → Bool) (change : ρ → ρ) (rows : List ρ) : Nat × List ρ :=
  (rows.countP p, rows.map fun row => if p row then change row else row)

/-- Whether two active teams share owner and slug. -/
def repeatsSlug : List TeamRow → Bool
  | [] => false
  | t :: rest =>
    (t.isActive && rest.any fun u => u.isActive && u.ownerId = t.ownerId && u.slug = t.slug) ||
      repeatsSlug rest

/-- Whether two pending invitations share team and address. -/
def repeatsPending : List InvitationRow → Bool
  | [] => false
  | i :: rest =>
    (i.isPending && rest.any fun j => j.isPending && j.teamId = i.teamId && j.email = i.email) ||
      repeatsPending rest

/-- Writes one column directly, under the constraints of the schema; the number
of rows written. -/
def overwrite (db : Database) : ColumnWrite → Except TeamError (Nat × Database)
  | .memberRole team user value =>
    let (count, members) := changeRows (·.isOf team user) ({ · with role := value }) db.members
    .ok (count, { db with members })
  | .invitationRole invitation value =>
    let (count, invitations) :=
      changeRows (·.id = invitation) ({ · with role := value }) db.invitations
    .ok (count, { db with invitations })
  | .invitationStatus invitation value =>
    let (count, invitations) :=
      changeRows (·.id = invitation) ({ · with status := value }) db.invitations
    if repeatsPending invitations then .error Constraint.uniquePendingEmail.error
    else .ok (count, { db with invitations })
  | .teamVisibility team value =>
    let (count, teams) := changeRows (·.id = team) ({ · with visibility := value }) db.teams
    .ok (count, { db with teams })
  | .teamStatus team value =>
    let (count, teams) := changeRows (·.id = team) ({ · with status := value }) db.teams
    if repeatsSlug teams then .error Constraint.uniqueActiveSlug.error
    else .ok (count, { db with teams })
  | .teamMemberLimit team value =>
    let (count, teams) := changeRows (·.id = team) ({ · with memberLimit := value }) db.teams
    if count ≠ 0 ∧ value < 1 then .error Constraint.positiveLimit.error
    else .ok (count, { db with teams })

end Database

end Roster
