import Roster.Proofs.Program.Rely

/-!
# Deeds

Every call changes the tables in one step at most. That step is the call's
*deed*; a deed records what the call had seen by then, what it wrote, and what
the call comes to with it.

* `Founding`, `Update`, `Dissolution` — deeds on teams;
* `RoleChange`, `Removal` — deeds on members;
* `Sending`, `Acceptance`, `Lapse`, `Rejection`, `Revocation`, `Sweep` — deeds
  on invitations;
* `Call.Deed` — the deeds of each call, with the result that each decides;
* `Call.Quiet` — the results of a call that did no deed.

What was seen may be outdated when the deed is done; what the store checks as
it writes is not.
-/

namespace Roster

variable (rely : Rely)

/-! ## Teams -/

/-- The draft of a team under a checked name. -/
def CreateTeam.draft (input : CreateTeam) (config : Config) (name : String) (now : Instant) :
    TeamDraft :=
  { ownerId := input.ownerId
    name
    slug := slugify name
    description := input.description
    visibility := input.visibility
    memberLimit := input.memberLimit.getD config.defaultMemberLimit
    createdAt := now }

/-- A team is stored together with its owner's membership. -/
structure Founding (config : Config) (input : CreateTeam) (name : String) (now : Instant)
    (w : World Tables) (s : Tables) (team : Team) : Prop where
  named : TeamName.validate input.name = .ok name
  limited : input.memberLimit.getD config.defaultMemberLimit ≠ 0
  free : rely.Seen w fun v => v.store.findTeamBySlug input.ownerId (slugify name) = none
  dated : rely.Seen w fun v => v.clock = now
  written : ∃ founded member,
    w.store.createTeam (input.draft config name now) = .ok (team, founded) ∧
    founded.addMember ⟨team.id, team.ownerId, .owner, team.createdAt⟩ = .ok (member, s)

/-- The record that an update writes: the team as it was read, with the given
fields changed. `name` is the given name once it is checked. -/
def UpdateTeam.revise (input : UpdateTeam) (name : Option String) (team : Team) (now : Instant) :
    Team :=
  let team := name.elim team (team.rename · now)
  let team := applyDescription team now input.description
  let team := applyVisibility team now input.visibility
  input.memberLimit.elim team fun limit => { team with memberLimit := limit, updatedAt := now }

/-- A team that was read is written back with the given fields changed. Its
members were counted after that, if a limit was given. -/
structure Update (input : UpdateTeam) (name : Option String) (before : Team) (now : Instant)
    (w : World Tables) (s : Tables) (team : Team) : Prop where
  found : rely.Seen w fun v => v.store.findTeam input.teamId = some before
  permitted : rely.Seen w fun v => ∃ member,
    v.store.findMember before.id input.requesterId = some member ∧
    member.role.allows .updateTeam = true
  dated : rely.Seen w fun v => v.clock = now
  named : Option.Rel (fun given checked => TeamName.validate given = .ok checked) input.name name
  limited : ∀ limit, input.memberLimit = some limit →
    limit ≠ 0 ∧ rely.Seen w fun v => v.store.countMembers before.id ≤ limit ∧
      rely.Seen v fun u => u.store.findTeam input.teamId = some before
  written : w.store.updateTeam (input.revise name before now) = .ok (team, s)

/-- A team is deleted and its pending invitations are revoked with it. -/
structure Dissolution (team requester : Int) (now : Instant) (w : World Tables) (s : Tables)
    (count : Nat) : Prop where
  permitted : rely.Seen w fun v => ∃ member, v.store.findMember team requester = some member ∧
    member.role.allows .deleteTeam = true
  dated : rely.Seen w fun v => v.clock = now
  written : ∃ deleted, w.store.deleteTeam team now = .ok ((), deleted) ∧
    deleted.settleAll (fun i => i.teamId = team) .revoked = (count, s)

/-! ## Members -/

/-- The role of a member is changed on behalf of another. -/
structure RoleChange (team target requester : Int) (role : Role) (now : Instant)
    (w : World Tables) (s : Tables) (changed : Member) : Prop where
  permitted : rely.Seen w fun v => ∃ acting, v.store.findMember team requester = some acting ∧
    acting.role.allows .updateRole = true ∧ acting.role.mayAssign role = true
  plain : rely.Seen w fun v => ∃ member, v.store.findMember team target = some member ∧
    member.role ≠ .owner
  role_ne : role ≠ .owner
  dated : rely.Seen w fun v => v.clock = now
  written : w.store.setRole team target role now = .ok (changed, s)

/-- A member is removed, by another or by themselves. -/
structure Removal (team target requester : Int) (w : World Tables) (s : Tables) : Prop where
  plain : rely.Seen w fun v => ∃ member, v.store.findMember team target = some member ∧
    member.role ≠ .owner
  permitted : target ≠ requester → rely.Seen w fun v => ∃ acting,
    v.store.findMember team requester = some acting ∧ acting.role.allows .removeMember = true
  written : w.store.removeMember team target = .ok ((), s)

/-! ## Invitations -/

/-- An invitation is issued. -/
structure Sending (config : Config) (team inviter : Int) (email : String) (role : Role)
    (invitee : Option User) (token : String) (now expiresAt : Instant) (w : World Tables)
    (s : Tables) (invitation : Invitation) : Prop where
  permitted : rely.Seen w fun v => ∃ member, v.store.findMember team inviter = some member ∧
    member.role.allows .invite = true ∧ member.role.mayAssign role = true
  invitable : role.isInvitable = true
  room : ∃ found, (rely.Seen w fun v => v.store.findTeam team = some found) ∧
    rely.Seen w fun v => v.store.countMembers team < found.memberLimit
  address : Email.validate (Email.normalize email) = .ok ()
  invited : rely.Seen w fun v => v.store.findUserByEmail (Email.normalize email) = invitee
  stranger : ∀ user, invitee = some user →
    rely.Seen w fun v => v.store.findMember team user.id = none
  drawn : rely.Seen w fun v => (v.random.token config.tokenLength).1 = token
  dated : rely.Seen w fun v => v.clock = now
  expires : now.add? config.expiry = some expiresAt
  written : w.store.createInvitation
    { teamId := team
      invitedBy := inviter
      email := Email.normalize email
      inviteeId := invitee.map (·.id)
      role
      tokenHash := Token.hash token
      expiresAt
      createdAt := now } = .ok (invitation, s)

/-- A token and an address were seen to name an invitation that was pending. -/
structure Presented (token : Secret) (email : String) (w : World Tables)
    (invitation : Invitation) : Prop where
  found : rely.Seen w fun v =>
    v.store.findInvitationByToken (Token.hash token.plain) = some invitation
  addressee : invitation.isFor email = true
  pending : invitation.isPending = true

/-- A user is enrolled and the invitation is accepted with it. The room is
counted and the invitation settled in the world of the deed. -/
structure Acceptance (token : Secret) (user : Int) (email : String) (invitation : Invitation)
    (w : World Tables) (s : Tables) (member : Member) : Prop where
  presented : Presented rely token email w invitation
  unexpired : rely.Seen w fun v => invitation.isExpiredAt v.clock = false
  role_ne : invitation.role ≠ .owner
  written : ∃ team joined accepted, w.store.findTeam invitation.teamId = some team ∧
    w.store.countMembers team.id < team.memberLimit ∧
    w.store.addMember ⟨team.id, user, invitation.role, w.clock⟩ = .ok (member, joined) ∧
    joined.settleInvitation invitation.id .accepted w.clock = .ok (some accepted, s)

/-- An expiry that was noticed is written down. -/
structure Lapse (token : Secret) (email : String) (invitation : Invitation) (w : World Tables)
    (s : Tables) : Prop where
  presented : Presented rely token email w invitation
  expired : rely.Seen w fun v => invitation.isExpiredAt v.clock = true
  written : ∃ now lapsed,
    w.store.settleInvitation invitation.id .expired now = .ok (some lapsed, s)

/-- An invitation is declined. -/
structure Rejection (token : Secret) (email : String) (invitation : Invitation)
    (w : World Tables) (s : Tables) (rejected : Invitation) : Prop where
  presented : Presented rely token email w invitation
  written : ∃ now, w.store.settleInvitation invitation.id .rejected now = .ok (some rejected, s)

/-- An invitation is withdrawn. -/
structure Revocation (id requester : Int) (invitation : Invitation) (w : World Tables)
    (s : Tables) (revoked : Invitation) : Prop where
  found : rely.Seen w fun v => v.store.findInvitation id = some invitation
  permitted : rely.Seen w fun v => ∃ member,
    v.store.findMember invitation.teamId requester = some member ∧
    member.role.allows .invite = true
  pending : invitation.isPending = true
  written : ∃ now, w.store.settleInvitation invitation.id .revoked now = .ok (some revoked, s)

/-- The pending invitations past their expiry are moved. -/
structure Sweep (team : Option Int) (now : Instant) (w : World Tables) (s : Tables)
    (count : Nat) : Prop where
  dated : rely.Seen w fun v => v.clock = now
  written : w.store.settleAll (fun i => Tables.ofTeam team i && i.isExpiredAt now) .expired =
    (count, s)

/-! ## Calls -/

/-- The deeds of a call: upon the world it leaves the tables and decides the
result. -/
inductive Call.Deed : Call → World Tables → Tables → Except Failure Answer → Prop
  | founds {config input name now w s team} : Founding rely config input name now w s team →
    Deed (.act config (.createTeam input)) w s (.ok (.team team))
  | updates {config input name before now w s team} : Update rely input name before now w s team →
    Deed (.act config (.updateTeam input)) w s (.ok (.team team))
  | dissolves {config team requester now w s count} : Dissolution rely team requester now w s count →
    Deed (.act config (.deleteTeam team requester)) w s (.ok (.count count))
  | changesRole {config team target requester role now w s changed} :
    (rely.Seen w fun v => ∃ found, v.store.findTeam team = some found) →
    RoleChange rely team target requester role now w s changed →
    Deed (.act config (.updateMemberRole team target requester role)) w s (.ok (.member changed))
  | removes {config team target requester w s} :
    (rely.Seen w fun v => ∃ found, v.store.findTeam team = some found) →
    Removal rely team target requester w s →
    Deed (.act config (.removeMember team target requester)) w s (.ok .unit)
  | leaves {config team user w s} :
    (rely.Seen w fun v => ∃ found, v.store.findTeam team = some found) →
    Removal rely team user user w s →
    Deed (.act config (.leaveTeam team user)) w s (.ok .unit)
  | sends {config team inviter email role invitee token now expiresAt w s sent} :
    Sending rely config team inviter email role invitee token now expiresAt w s sent.invitation →
    sent.token = ⟨token⟩ →
    Deed (.act config (.sendInvitation team inviter email role)) w s (.ok (.sent sent))
  | accepts {config token user email invitation w s member} :
    Acceptance rely token user email invitation w s member →
    Deed (.act config (.acceptInvitation token user email)) w s (.ok (.member member))
  | lapses {config token user email invitation w s} : Lapse rely token email invitation w s →
    Deed (.act config (.acceptInvitation token user email)) w s
      (.error (.error (.invitationExpired invitation.id)))
  | rejects {config token email invitation w s rejected} :
    Rejection rely token email invitation w s rejected →
    Deed (.act config (.rejectInvitation token email)) w s (.ok (.invitation rejected))
  | revokes {config id requester invitation w s revoked} :
    Revocation rely id requester invitation w s revoked →
    Deed (.act config (.revokeInvitation id requester)) w s (.ok (.invitation revoked))
  | sweeps {config team now w s count} : Sweep rely team now w s count →
    Deed (.act config (.expireStaleInvitations team)) w s (.ok (.count count))
  | changesRoleDirectly {team target requester role now w s changed} :
    RoleChange rely team target requester role now w s changed →
    Deed (.membership (.changeRole team target requester role)) w s (.ok (.member changed))
  | removesDirectly {team target requester w s} : Removal rely team target requester w s →
    Deed (.membership (.remove team target requester)) w s (.ok .unit)
  | leavesDirectly {team user w s} : Removal rely team user user w s →
    Deed (.membership (.leave team user)) w s (.ok .unit)

/-- Whether a call only reads. -/
def Call.onlyReads : Call → Bool
  | .act _ (.getTeam _ _) => true
  | .act _ (.listMyTeams _ _) => true
  | .act _ (.listMembers _ _) => true
  | .act _ (.listTeamInvitations _ _ _ _) => true
  | .act _ (.listMyInvitations _ _ _) => true
  | .membership (.get _ _) => true
  | .membership (.count _) => true
  | .membership (.require _ _ _) => true
  | _ => false

/-- The results of a call that did no deed: failures, and what reading calls
reply. -/
def Call.Quiet (call : Call) (result : Except Failure Answer) : Prop :=
  call.onlyReads = true ∨ ∃ failure, result = .error failure

/-- Only calls that read come to a success without a deed. -/
theorem Call.Quiet.onlyReads_of_ok {call : Call} {answer : Answer}
    (h : call.Quiet (.ok answer)) : call.onlyReads = true := by
  rcases h with hreads | ⟨failure, hfailure⟩
  · exact hreads
  · cases hfailure

end Roster
