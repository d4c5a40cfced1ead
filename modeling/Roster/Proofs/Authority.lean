import Roster.Proofs.Deed.Rows
import Roster.Proofs.Sequence

/-!
# Every change is authorised

* `Tables.Manages` — who manages a team: its owner and its admins;
* `Authorised` — what may differ after an action, field by field, and on whose
  request, judged by the tables before it;
* `Call.Deed.authorised` — a deed that nothing comes between is authorised;
* `World.changes_authorised` — so is every action, after any episodes on an empty
  store.
-/

namespace Roster

/-- The user is an owner or admin of the team. -/
def Tables.Manages (s : Tables) (team user : Int) : Prop :=
  ∃ m ∈ s.members, m.teamId = team ∧ m.userId = user ∧ (m.role = .owner ∨ m.role = .admin)

/-- All that an action at a time may change in the tables `s`, with what authority,
if it leaves `s'`:

* a team changes by an update that a manager asks for, or is deleted by its owner,
  and a new one is its founder's;
* a member goes on their own request or a manager's, and the owner never goes;
* a role changes on a manager's request, never the owner's and never to owner;
* a member comes as the founder of a new team, or with the token and the address of
  a pending, unexpired invitation to the team, at its role;
* an invitation comes from a manager, and never offers ownership;
* an invitation changes by its token and address, on a manager's request, with its
  team, or in a sweep after it has expired. -/
structure Authorised (now : Instant) (action : Action) (s s' : Tables) : Prop where
  team : ∀ t ∈ s.teams, t ∉ s'.teams →
    (∃ input, action = .updateTeam input ∧ input.teamId = t.id ∧
      s.Manages t.id input.requesterId) ∨
    action = .deleteTeam t.id t.ownerId
  founding : ∀ t ∈ s'.teams, (∀ u ∈ s.teams, u.id ≠ t.id) →
    ∃ input, action = .createTeam input ∧ input.ownerId = t.ownerId
  removal : ∀ m ∈ s.members, s'.isMember m.teamId m.userId = false →
    m.role ≠ .owner ∧ (action = .leaveTeam m.teamId m.userId ∨
      ∃ requester, action = .removeMember m.teamId m.userId requester ∧
        (requester = m.userId ∨ s.Manages m.teamId requester))
  role : ∀ m ∈ s.members, ∀ m' ∈ s'.members, m'.teamId = m.teamId → m'.userId = m.userId →
    m'.role ≠ m.role → m.role ≠ .owner ∧ m'.role ≠ .owner ∧
      ∃ requester, action = .updateMemberRole m.teamId m.userId requester m'.role ∧
        s.Manages m.teamId requester
  member : ∀ m ∈ s'.members, s.isMember m.teamId m.userId = false →
    (∃ input, action = .createTeam input ∧ input.ownerId = m.userId ∧
      (∃ t ∈ s'.teams, t.id = m.teamId ∧ t.ownerId = m.userId) ∧
      ∀ t ∈ s.teams, t.id ≠ m.teamId) ∨
    ∃ token email, action = .acceptInvitation token m.userId email ∧
      ∃ i ∈ s.invitations, i.tokenHash = Token.hash token.plain ∧ i.isFor email = true ∧
        i.isPending = true ∧ i.isExpiredAt now = false ∧ i.teamId = m.teamId ∧ i.role = m.role
  invitation : ∀ i ∈ s'.invitations, (∀ j ∈ s.invitations, j.id ≠ i.id) →
    i.role ≠ .owner ∧ s.Manages i.teamId i.invitedBy ∧
      ∃ email, action = .sendInvitation i.teamId i.invitedBy email i.role
  settlement : ∀ i ∈ s.invitations, i ∉ s'.invitations →
    (∃ token email, i.tokenHash = Token.hash token.plain ∧ i.isFor email = true ∧
      ((∃ user, action = .acceptInvitation token user email) ∨
        action = .rejectInvitation token email)) ∨
    (∃ requester, action = .revokeInvitation i.id requester ∧ s.Manages i.teamId requester) ∨
    (∃ t ∈ s.teams, t.id = i.teamId ∧ action = .deleteTeam t.id t.ownerId) ∨
    ∃ team, action = .expireStaleInvitations team ∧ i.isExpiredAt now = true

/-! ## Who has a permission -/

/-- Only owners and admins may do more than look. -/
theorem Role.manages_of_allows {role : Role} {permission : Permission}
    (h : role.allows permission = true) (hmore : permission ≠ .view) :
    role = .owner ∨ role = .admin := by
  cases role <;> cases permission <;> simp_all [Role.allows]

theorem Role.owner_of_allows {role : Role} (h : role.allows .deleteTeam = true) :
    role = .owner := by
  cases role <;> simp_all [Role.allows]

section

variable {s s' : Tables} {now : Instant} {w : World Tables}

/-- Whoever was seen with a permission manages the team. -/
theorem Rely.Seen.manages {team user : Int} {permission : Permission}
    (h : (Rely.alone s now).Seen w fun v => ∃ member, v.store.findMember team user = some member ∧
      member.role.allows permission = true) (hmore : permission ≠ .view) :
    s.Manages team user := by
  obtain ⟨random, member, hfound, hallows⟩ := h.alone
  obtain ⟨hmem, hteam, huser⟩ := Tables.findMember_some hfound
  exact ⟨member, hmem, hteam, huser, Role.manages_of_allows hallows hmore⟩

/-- Whoever was seen with the right to delete a team is its owner. -/
theorem Rely.Seen.owner (ho : s.Owned) {team user : Int}
    (h : (Rely.alone s now).Seen w fun v => ∃ member, v.store.findMember team user = some member ∧
      member.role.allows .deleteTeam = true) :
    ∃ t ∈ s.teams, t.id = team ∧ t.ownerId = user := by
  obtain ⟨random, member, hfound, hallows⟩ := h.alone
  obtain ⟨hmem, hteam, huser⟩ := Tables.findMember_some hfound
  obtain ⟨t, ht, hid, hiff⟩ := ho.roles member hmem
  have howner := hiff.mp (Role.owner_of_allows hallows)
  exact ⟨t, ht, hid.trans hteam, howner.symm.trans huser⟩

/-- Somebody who was seen at another role than the owner's has another role. -/
theorem Rely.Seen.role_ne (hk : s.Keyed) {m : Member} (hm : m ∈ s.members)
    (h : (Rely.alone s now).Seen w fun v => ∃ member,
      v.store.findMember m.teamId m.userId = some member ∧ member.role ≠ .owner) :
    m.role ≠ .owner := by
  obtain ⟨random, member, hfound, hrole⟩ := h.alone
  have hfound' : s.findMember m.teamId m.userId = some member := hfound
  rw [hk.findMember_of_mem hm] at hfound'
  obtain rfl := Option.some.inj hfound'
  exact hrole

/-- The invitation that a token and an address were seen to name. -/
theorem Presented.alone {token : Secret} {email : String} {invitation : Invitation}
    (h : Presented (Rely.alone s now) token email w invitation) :
    invitation ∈ s.invitations ∧ invitation.tokenHash = Token.hash token.plain ∧
      invitation.isFor email = true ∧ invitation.isPending = true := by
  obtain ⟨random, hfound⟩ := h.found.alone
  obtain ⟨hmem, hhash⟩ := Tables.findInvitationByToken_some hfound
  exact ⟨hmem, hhash, h.addressee, h.pending⟩

end

/-! ## Authority, field by field -/

section

variable {config : Config} {action : Action} {s s' : Tables} {now : Instant}
  {random : RandomSource} {result : Except Failure Answer}
  (h : (Call.act config action).Deed (Rely.alone s now) ⟨s, now, random⟩ s' result)

include h

theorem Call.Deed.team_authorised (hk : s.Keyed) (ho : s.Owned) {t : Team} (ht : t ∈ s.teams)
    (hchanged : t ∉ s'.teams) :
    (∃ input, action = .updateTeam input ∧ input.teamId = t.id ∧
      s.Manages t.id input.requesterId) ∨
    action = .deleteTeam t.id t.ownerId := by
  rcases h.team_changed ht hchanged with
    ⟨_, input, name, before, time, after, hcall, hid, hupdate⟩ |
    ⟨_, requester, time, count, hcall, hdissolution⟩
  · cases hcall
    obtain ⟨_, hfound⟩ := hupdate.found.alone
    obtain ⟨-, hteam, -⟩ := Tables.findTeam_some hfound
    have hmanages := hupdate.permitted.manages (by decide)
    rw [hid] at hmanages
    exact .inl ⟨input, rfl, hteam.symm.trans hid, hmanages⟩
  · cases hcall
    -- the owner's role is held by the team's owner only
    obtain ⟨t', ht', hid, howner⟩ := hdissolution.permitted.owner ho
    obtain rfl := hk.team_eq ht' ht hid
    exact .inr (congrArg (Action.deleteTeam t'.id) howner.symm)

theorem Call.Deed.founding_authorised {t : Team} (ht : t ∈ s'.teams)
    (hnew : ∀ u ∈ s.teams, u.id ≠ t.id) :
    ∃ input, action = .createTeam input ∧ input.ownerId = t.ownerId := by
  obtain ⟨_, input, name, time, hcall, hfounding⟩ := h.team_founded ht hnew
  obtain ⟨-, howner, -⟩ := hfounding.teams_eq
  cases hcall
  exact ⟨input, rfl, howner.symm⟩

theorem Call.Deed.removal_authorised (hk : s.Keyed) {m : Member} (hm : m ∈ s.members)
    (hgone : s'.isMember m.teamId m.userId = false) :
    m.role ≠ .owner ∧ (action = .leaveTeam m.teamId m.userId ∨
      ∃ requester, action = .removeMember m.teamId m.userId requester ∧
        (requester = m.userId ∨ s.Manages m.teamId requester)) := by
  obtain ⟨requester, hcall, hremoval⟩ := h.member_left hm hgone
  refine ⟨hremoval.plain.role_ne hk hm, ?_⟩
  -- on oneself no permission is needed
  have hpermitted : requester = m.userId ∨ s.Manages m.teamId requester := by
    by_cases hself : m.userId = requester
    · exact .inl hself.symm
    · exact .inr ((hremoval.permitted hself).manages (by decide))
  cases action with
  | removeMember team target asking =>
    obtain ⟨rfl, rfl, rfl⟩ : team = m.teamId ∧ target = m.userId ∧ asking = requester := by
      simpa [Call.removal?] using hcall
    exact .inr ⟨_, rfl, hpermitted⟩
  | leaveTeam team user =>
    obtain ⟨rfl, rfl, -⟩ : team = m.teamId ∧ user = m.userId ∧ user = requester := by
      simpa [Call.removal?] using hcall
    exact .inl rfl
  | _ => cases hcall

theorem Call.Deed.role_authorised (hk : s.Keyed) {m m' : Member} (hm : m ∈ s.members)
    (hm' : m' ∈ s'.members) (hteam : m'.teamId = m.teamId) (huser : m'.userId = m.userId)
    (hrole : m'.role ≠ m.role) :
    m.role ≠ .owner ∧ m'.role ≠ .owner ∧
      ∃ requester, action = .updateMemberRole m.teamId m.userId requester m'.role ∧
        s.Manages m.teamId requester := by
  obtain ⟨requester, time, hcall, hchange⟩ := h.role_changed hk hm hm' hteam huser hrole
  have hmanages : s.Manages m.teamId requester :=
    (hchange.permitted.imp fun _ ⟨acting, hfound, hallows, _⟩ =>
      ⟨acting, hfound, hallows⟩).manages (by decide)
  refine ⟨hchange.plain.role_ne hk hm, hchange.role_ne, requester, ?_, hmanages⟩
  cases action with
  | updateMemberRole team target asking role =>
    obtain ⟨rfl, rfl, rfl, rfl⟩ : team = m.teamId ∧ target = m.userId ∧ asking = requester ∧
        role = m'.role := by
      simpa [Call.roleChange?] using hcall
    rfl
  | _ => cases hcall

theorem Call.Deed.member_authorised (hk : s.Keyed) {m : Member} (hm : m ∈ s'.members)
    (hnew : s.isMember m.teamId m.userId = false) :
    (∃ input, action = .createTeam input ∧ input.ownerId = m.userId ∧
      (∃ t ∈ s'.teams, t.id = m.teamId ∧ t.ownerId = m.userId) ∧
      ∀ t ∈ s.teams, t.id ≠ m.teamId) ∨
    ∃ token email, action = .acceptInvitation token m.userId email ∧
      ∃ i ∈ s.invitations, i.tokenHash = Token.hash token.plain ∧ i.isFor email = true ∧
        i.isPending = true ∧ i.isExpiredAt now = false ∧ i.teamId = m.teamId ∧
        i.role = m.role := by
  rcases h.member_joined hm hnew with
    ⟨_, input, name, time, team, hcall, hfounding, hteam, huser⟩ |
    ⟨_, token, user, email, invitation, hcall, hacceptance⟩
  · cases hcall
    obtain ⟨hid, howner, hteams⟩ := hfounding.teams_eq
    refine .inl ⟨input, rfl, huser.symm, ⟨team, ?_, hteam.symm, howner.trans huser.symm⟩, ?_⟩
    · rw [hteams]
      exact List.mem_append_right _ List.mem_cons_self
    · intro t ht heq
      have hle := hk.teams_le t ht
      have hnext : team.id = s.lastTeamId + 1 := hid
      omega
  · cases hcall
    obtain ⟨hmem, hhash, hfor, hpending⟩ := hacceptance.presented.alone
    obtain ⟨_, hunexpired⟩ := hacceptance.unexpired.alone
    obtain ⟨hteam, rfl, hrole, -⟩ := hacceptance.members_perm
    exact .inr ⟨token, email, rfl, invitation, hmem, hhash, hfor, hpending, hunexpired,
      hteam.symm, hrole.symm⟩

theorem Call.Deed.invitation_authorised {i : Invitation} (hi : i ∈ s'.invitations)
    (hnew : ∀ j ∈ s.invitations, j.id ≠ i.id) :
    i.role ≠ .owner ∧ s.Manages i.teamId i.invitedBy ∧
      ∃ email, action = .sendInvitation i.teamId i.invitedBy email i.role := by
  obtain ⟨_, email, invitee, token, time, expiresAt, hcall, hsending⟩ :=
    h.invitation_issued hi hnew
  cases hcall
  have hmanages : s.Manages i.teamId i.invitedBy :=
    (hsending.permitted.imp fun _ ⟨member, hfound, hallows, _⟩ =>
      ⟨member, hfound, hallows⟩).manages (by decide)
  exact ⟨of_decide_eq_true hsending.invitable, hmanages, email, rfl⟩

theorem Call.Deed.settlement_authorised (hk : s.Keyed) (ho : s.Owned) {i : Invitation}
    (hi : i ∈ s.invitations) (hgone : i ∉ s'.invitations) :
    (∃ token email, i.tokenHash = Token.hash token.plain ∧ i.isFor email = true ∧
      ((∃ user, action = .acceptInvitation token user email) ∨
        action = .rejectInvitation token email)) ∨
    (∃ requester, action = .revokeInvitation i.id requester ∧ s.Manages i.teamId requester) ∨
    (∃ t ∈ s.teams, t.id = i.teamId ∧ action = .deleteTeam t.id t.ownerId) ∨
    ∃ team, action = .expireStaleInvitations team ∧ i.isExpiredAt now = true := by
  -- a row that a token and an address named is the one with their digest
  have hnamed : ∀ {token : Secret} {email : String} {invitation : Invitation},
      i.id = invitation.id →
      Presented (Rely.alone s now) token email ⟨s, now, random⟩ invitation →
      i.tokenHash = Token.hash token.plain ∧ i.isFor email = true := by
    intro token email invitation hid hpresented
    obtain ⟨hmem, hhash, hfor, -⟩ := hpresented.alone
    obtain rfl := hk.invitation_eq hi hmem hid
    exact ⟨hhash, hfor⟩
  cases h.invitation_settled hi hgone with
  | dissolves hdissolution =>
    obtain ⟨t, ht, hid, howner⟩ := hdissolution.permitted.owner ho
    refine .inr (.inr (.inl ⟨t, ht, hid, ?_⟩))
    rw [hid, howner]
  | @accepts _ token user email _ _ _ _ hid hacceptance =>
    obtain ⟨hhash, hfor⟩ := hnamed hid hacceptance.presented
    exact .inl ⟨token, email, hhash, hfor, .inl ⟨user, rfl⟩⟩
  | @lapses _ token user email _ _ _ hid hlapse =>
    obtain ⟨hhash, hfor⟩ := hnamed hid hlapse.presented
    exact .inl ⟨token, email, hhash, hfor, .inl ⟨user, rfl⟩⟩
  | @rejects _ token email _ _ _ _ hid hrejection =>
    obtain ⟨hhash, hfor⟩ := hnamed hid hrejection.presented
    exact .inl ⟨token, email, hhash, hfor, .inr rfl⟩
  | @revokes _ requester invitation _ _ _ hrevocation =>
    obtain ⟨_, hfound⟩ := hrevocation.found.alone
    have hfound' : s.findInvitation i.id = some invitation := hfound
    rw [hk.findInvitation_of_mem hi] at hfound'
    obtain rfl := Option.some.inj hfound'
    exact .inr (.inl ⟨requester, rfl, hrevocation.permitted.manages (by decide)⟩)
  | @sweeps _ team time _ _ _ hexpired hsweep =>
    obtain ⟨_, hdated⟩ := hsweep.dated.alone
    have hnow : now = time := hdated
    rw [hnow]
    exact .inr (.inr (.inr ⟨team, rfl, hexpired⟩))

/-- A deed that nothing comes between is authorised. -/
theorem Call.Deed.authorised (hk : s.Keyed) (ho : s.Owned) : Authorised now action s s' where
  team := fun _ ht hchanged => h.team_authorised hk ho ht hchanged
  founding := fun _ ht hnew => h.founding_authorised ht hnew
  removal := fun _ hm hgone => h.removal_authorised hk hm hgone
  role := fun _ hm _ hm' hteam huser hrole => h.role_authorised hk hm hm' hteam huser hrole
  member := fun _ hm hnew => h.member_authorised hk hm hnew
  invitation := fun _ hi hnew => h.invitation_authorised hi hnew
  settlement := fun _ hi hgone => h.settlement_authorised hk ho hi hgone

end

/-- To change nothing needs no authority. -/
theorem Authorised.refl (now : Instant) (action : Action) {s : Tables} (hk : s.Keyed) :
    Authorised now action s s := by
  have hmember : ∀ m ∈ s.members, s.isMember m.teamId m.userId = false → False := by
    intro m hm hnone
    rw [Tables.isMember_iff.mpr ⟨m, hm, rfl, rfl⟩] at hnone
    cases hnone
  exact {
    team := fun _ ht hchanged => absurd ht hchanged
    founding := fun t ht hnew => absurd rfl (hnew t ht)
    removal := fun m hm hgone => (hmember m hm hgone).elim
    role := fun m hm m' hm' hteam huser hrole =>
      absurd (congrArg Member.role (hk.member_eq hm' hm hteam huser)) hrole
    member := fun m hm hnew => (hmember m hm hnew).elim
    invitation := fun i hi hnew => absurd rfl (hnew i hi)
    settlement := fun _ hi hgone => absurd hi hgone }

/-- After any episodes on an empty store, all that an action changes is
authorised by the tables that it finds. -/
theorem World.changes_authorised (clock : Instant) (random : RandomSource)
    (history : List Episode) (config : Config) (action : Action) :
    let w := World.afterAll ⟨Store.empty, clock, random⟩ history
    Authorised w.clock action w.store ((action.program config).run w).world.store := by
  intro w
  obtain ⟨hk, ho⟩ : w.store.Sound :=
    World.afterAll_sound ⟨Tables.empty_keyed, Tables.empty_owned⟩ history
  rcases (action.run_deed config w).2 with hsame | ⟨_, _, hdeed⟩
  · rw [hsame]
    exact .refl w.clock action hk
  · exact hdeed.authorised hk ho

end Roster
