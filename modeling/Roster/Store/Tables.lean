import Roster.Store.Basic

/-!
# The store held in memory

`Tables` keeps typed records: teams, invitations and users in the order of
their ids, members in the order of their key, and the last id given out in each
table.

* Every call either answers together with the new tables, or fails and changes
  nothing: its type is `Except TeamError (α × Tables)`.
* `Tables.perform` sends each call to its function, and makes `Tables` a
  `Store`.

`failSettling` makes every change of an invitation's status by
`settleInvitation` fail, which shows what callers do when a write is lost.
-/

namespace Roster

/-- The tables and the last ids of a store in memory. -/
structure Tables where
  users : List User
  teams : List Team
  members : List Member
  invitations : List Invitation
  lastUserId : Int
  lastTeamId : Int
  lastInvitationId : Int
  failSettling : Bool
deriving DecidableEq

namespace Tables

/-- No rows, and no id given out. -/
def empty : Tables :=
  { users := [], teams := [], members := [], invitations := []
    lastUserId := 0, lastTeamId := 0, lastInvitationId := 0, failSettling := false }

/-- What a call that can change the tables gives back. -/
abbrev Result (α : Type) : Type := Except TeamError (α × Tables)

/-! ## Teams -/

/-- Whether an active team of the owner, other than `except`, has the slug. -/
def slugInUse (s : Tables) (owner : Int) (slug : String) (except : Option Int) : Bool :=
  s.teams.any fun t => t.isActive && t.ownerId = owner && t.slug = slug && some t.id ≠ except

/-- The active team of an id. -/
def findTeam (s : Tables) (team : Int) : Option Team :=
  s.teams.find? fun t => t.id = team && t.isActive

/-- The active team of an owner with a slug. -/
def findTeamBySlug (s : Tables) (owner : Int) (slug : String) : Option Team :=
  s.teams.find? fun t => t.isActive && t.ownerId = owner && t.slug = slug

/-- Stores a new team under the next id. -/
def createTeam (s : Tables) (draft : TeamDraft) : Result Team :=
  if s.slugInUse draft.ownerId draft.slug none then .error (.slugTaken draft.slug)
  else
    let team : Team :=
      { id := s.lastTeamId + 1
        ownerId := draft.ownerId
        name := draft.name
        slug := draft.slug
        description := draft.description
        visibility := draft.visibility
        memberLimit := draft.memberLimit
        status := .active
        createdAt := draft.createdAt
        updatedAt := draft.createdAt }
    .ok (team, { s with teams := s.teams ++ [team], lastTeamId := team.id })

/-- Whether a user is a member of a team. -/
def isMember (s : Tables) (team user : Int) : Bool :=
  s.members.any (·.isOf team user)

/-- Newest first; of equally old teams the later id first. -/
def newerTeam (a b : Team) : Bool :=
  b.createdAt < a.createdAt || (a.createdAt = b.createdAt && b.id ≤ a.id)

/-- A page of the active teams of a user, newest first. -/
def listTeamsOf (s : Tables) (user : Int) (page : Page) : List Team :=
  page.slice ((s.teams.filter fun t => t.isActive && s.isMember t.id user).mergeSort newerTeam)

/-- Puts a record in the place of the active team with its id. -/
def updateTeam (s : Tables) (team : Team) : Result Team :=
  if (s.findTeam team.id).isNone then .error (.teamNotFound team.id)
  else if s.slugInUse team.ownerId team.slug (some team.id) then .error (.slugTaken team.slug)
  else .ok (team, { s with teams := s.teams.map fun t => if t.id = team.id then team else t })

/-- Marks an active team as deleted. -/
def deleteTeam (s : Tables) (team : Int) (now : Instant) : Result Unit :=
  if (s.findTeam team).isNone then .error (.teamNotFound team)
  else
    .ok ((), { s with
      teams := s.teams.map fun t => if t.id = team then t.markDeleted now else t })

/-! ## Members -/

/-- The member of a key. -/
def findMember (s : Tables) (team user : Int) : Option Member :=
  s.members.find? (·.isOf team user)

/-- Stores a new member at its place in the order of keys. -/
def addMember (s : Tables) (draft : MemberDraft) : Result Member :=
  if s.isMember draft.teamId draft.userId then .error (.alreadyMember draft.teamId)
  else
    .ok (draft.member, { s with
      members := insertBefore (fun a b => keyBefore a.teamId a.userId b.teamId b.userId)
        draft.member s.members })

/-- In the order of joining; of members that joined together the lower user id
first. -/
def earlierMember (a b : Member) : Bool :=
  a.joinedAt < b.joinedAt || (a.joinedAt = b.joinedAt && a.userId ≤ b.userId)

/-- The members of a team in the order of joining. -/
def listMembers (s : Tables) (team : Int) : List Member :=
  (s.members.filter fun m => m.teamId = team).mergeSort earlierMember

/-- The user of an id. -/
def findUser (s : Tables) (user : Int) : Option User :=
  s.users.find? fun u => u.id = user

/-- The members of a team that the directory knows, with their details. -/
def listProfiles (s : Tables) (team : Int) : List MemberProfile :=
  (s.listMembers team).filterMap fun m =>
    (s.findUser m.userId).map fun u => ⟨m, u.email, u.name⟩

/-- Changes the role of a member. -/
def setRole (s : Tables) (team user : Int) (role : Role) (now : Instant) : Result Member :=
  match s.findMember team user with
  | none => .error (.memberNotFound team user)
  | some member =>
    let changed := { member with role, updatedAt := now }
    .ok (changed, { s with
      members := s.members.map fun m => if m.isOf team user then changed else m })

/-- Removes a member. -/
def removeMember (s : Tables) (team user : Int) : Result Unit :=
  if s.isMember team user then
    .ok ((), { s with members := s.members.filter fun m => !m.isOf team user })
  else .error (.memberNotFound team user)

/-- The number of members of a team, up to `maxCount`. -/
def countMembers (s : Tables) (team : Int) : UInt32 :=
  UInt32.ofNat (min (s.members.countP fun m => m.teamId = team) maxCount)

/-! ## Invitations -/

/-- The pending invitation of a team for an address. -/
def findPendingInvitation (s : Tables) (team : Int) (email : String) : Option Invitation :=
  s.invitations.find? fun i => i.teamId = team && i.isPending && i.email = email

/-- The invitation with a token digest. -/
def findInvitationByToken (s : Tables) (tokenHash : String) : Option Invitation :=
  s.invitations.find? fun i => i.tokenHash = tokenHash

/-- The invitation of an id. -/
def findInvitation (s : Tables) (invitation : Int) : Option Invitation :=
  s.invitations.find? fun i => i.id = invitation

/-- Stores a new pending invitation under the next id. -/
def createInvitation (s : Tables) (draft : InvitationDraft) : Result Invitation :=
  if (s.findInvitationByToken draft.tokenHash).isSome then
    .error (.internal "duplicate invitation token")
  else if (s.findPendingInvitation draft.teamId draft.email).isSome then
    .error (.alreadyInvited draft.teamId)
  else
    let invitation := draft.invitation (s.lastInvitationId + 1)
    .ok (invitation, { s with
      invitations := s.invitations ++ [invitation]
      lastInvitationId := invitation.id })

/-- Newest first; of equally old invitations the later id first. -/
def newerInvitation (a b : Invitation) : Bool :=
  b.createdAt < a.createdAt || (a.createdAt = b.createdAt && b.id ≤ a.id)

/-- A page of the invitations that satisfy `p` and have the status, if one is
given, newest first. -/
def listInvitations (s : Tables) (p : Invitation → Bool) (status : Option InvitationStatus)
    (page : Page) : List Invitation :=
  page.slice ((s.invitations.filter fun i =>
    p i && status.all (i.status = ·)).mergeSort newerInvitation)

/-- Moves an invitation to a status if it is still pending; `none` if it no
longer is. -/
def settleInvitation (s : Tables) (invitation : Int) (status : InvitationStatus)
    (now : Instant) : Result (Option Invitation) :=
  if s.failSettling then .error (.database "injected failure: update_status")
  else match s.findInvitation invitation with
    | none => .error .invitationNotFound
    | some found =>
      if found.isPending then
        let settled := found.settle status now
        .ok (some settled, { s with
          invitations := s.invitations.map fun i => if i.id = invitation then settled else i })
      else .ok (none, s)

/-- Moves every pending invitation that satisfies `p` to a status, and counts
them. -/
def settleAll (s : Tables) (p : Invitation → Bool) (status : InvitationStatus) : Nat × Tables :=
  let moves := fun i : Invitation => i.isPending && p i
  (s.invitations.countP moves, { s with
    invitations := s.invitations.map fun i => if moves i then { i with status } else i })

/-- Whether an invitation belongs to a team, or to any if none is given. -/
def ofTeam (team : Option Int) (invitation : Invitation) : Bool :=
  team.all (invitation.teamId = ·)

/-! ## Users -/

/-- Adds a user to the directory, with the address normalized. -/
def insertUser (s : Tables) (email name : String) : User × Tables :=
  let user : User := ⟨s.lastUserId + 1, Email.normalize email, name⟩
  (user, { s with users := s.users ++ [user], lastUserId := user.id })

/-- The first user with an address. -/
def findUserByEmail (s : Tables) (email : String) : Option User :=
  s.users.find? fun u => u.email = Email.normalize email

/-! ## The store -/

/-- Answers a call that leaves the tables alone. -/
def reading {α : Type} (s : Tables) (reply : α) : Result α :=
  .ok (reply, s)

/-- Answers any call. -/
def perform (s : Tables) : {α : Type} → StoreCall α → Result α
  | _, .createTeam draft => s.createTeam draft
  | _, .findTeam team => s.reading (s.findTeam team)
  | _, .findTeamBySlug owner slug => s.reading (s.findTeamBySlug owner slug)
  | _, .listTeamsOf user page => s.reading (s.listTeamsOf user page)
  | _, .updateTeam team => s.updateTeam team
  | _, .deleteTeam team now => s.deleteTeam team now
  | _, .addMember draft => s.addMember draft
  | _, .findMember team user => s.reading (s.findMember team user)
  | _, .listMembers team => s.reading (s.listMembers team)
  | _, .listProfiles team => s.reading (s.listProfiles team)
  | _, .setRole team user role now => s.setRole team user role now
  | _, .removeMember team user => s.removeMember team user
  | _, .countMembers team => s.reading (s.countMembers team)
  | _, .createInvitation draft => s.createInvitation draft
  | _, .findInvitation invitation => s.reading (s.findInvitation invitation)
  | _, .findInvitationByToken tokenHash => s.reading (s.findInvitationByToken tokenHash)
  | _, .findPendingInvitation team email => s.reading (s.findPendingInvitation team email)
  | _, .listInvitationsOf team status page =>
    s.reading (s.listInvitations (fun i => i.teamId = team) status page)
  | _, .listInvitationsTo email status page =>
    s.reading (s.listInvitations (fun i => i.email = email) status page)
  | _, .settleInvitation invitation status now => s.settleInvitation invitation status now
  | _, .revokePending team => .ok (s.settleAll (fun i => i.teamId = team) .revoked)
  | _, .expireStale team now => .ok (s.settleAll (fun i => ofTeam team i && i.isExpiredAt now) .expired)

instance : Store Tables where
  empty := empty
  perform call s :=
    match s.perform call with
    | .ok (reply, next) => ⟨.ok reply, [], next⟩
    | .error e => ⟨.error e, [], s⟩
  insertUser email name s :=
    let (user, next) := s.insertUser email name
    ⟨.ok user, [], next⟩
  findUser user s := s.findUser user
  findUserByEmail email s := s.findUserByEmail email
  keepsOpen := true

/-- A call either gives its reply and the new tables, or changes nothing. -/
theorem perform_eq {α : Type} (call : StoreCall α) (s : Tables) :
    Store.perform call s =
      match s.perform call with
      | .ok (reply, next) => ⟨.ok reply, [], next⟩
      | .error e => ⟨.error e, [], s⟩ := rfl

end Tables

end Roster
