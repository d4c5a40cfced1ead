import Roster.Proofs.Contest

/-!
# Racing creators have one winner

Calls that race for one slug, for one invitation or for the deletion of one team look first
whether they come too late, and the write that they make looks again. Whichever look it is
that stops a call, the call fails in the same way.

* `Call.CreatesUnder`, `Call.Invites`, `Call.Deletes` — the calls of such a race, and
  `Call.Sendable`, what keeps an invitation from being sent whoever else sends one;
* `Contest.forSlug`, `Contest.forAddress`, `Contest.forDeletion` — what they contend for;
  each kind of call has its lemma (`Program.contends_createTeam` and so on);
* `Pool.one_creator_wins` — in every order of steps, exactly one call of the race succeeds,
  and all others are told the same.
-/

namespace Roster

/-! ## What the tables do -/

namespace Tables

variable {s : Tables}

/-- Without an exception a slug is in use exactly if a team can be found by it. -/
theorem slugInUse_none (owner : Int) (slug : String) :
    s.slugInUse owner slug none = (s.findTeamBySlug owner slug).isSome := by
  simp [slugInUse, findTeamBySlug, List.isSome_find?]

/-- Nobody is a member of the team that comes next. -/
theorem isMember_next (hk : s.Keyed) (ho : s.Owned) (user : Int) :
    s.isMember (s.lastTeamId + 1) user = false := by
  rw [Bool.eq_false_iff]
  intro hmember
  obtain ⟨m, hm, hteam, -⟩ := isMember_iff.mp hmember
  have hnone := membersOf_fresh hk ho (Int.lt_succ s.lastTeamId)
  exact List.countP_eq_zero.mp hnone m hm (decide_eq_true hteam)

/-- The owner of a team is found among its members, at the owner's role. -/
theorem Owned.findMember_owner (ho : s.Owned) (hk : s.Keyed) {team : Team}
    (hteam : team ∈ s.teams) :
    ∃ member, s.findMember team.id team.ownerId = some member ∧ member.role = .owner := by
  obtain ⟨member, hmember, hof, huser⟩ := ho.owners team hteam
  obtain ⟨team', hteam', hid, hrole⟩ := ho.roles member hmember
  obtain rfl : team' = team := hk.team_eq hteam' hteam (hid.trans hof)
  refine ⟨member, ?_, hrole.mpr huser⟩
  rw [← hof, ← huser]
  exact hk.findMember_of_mem hmember

end Tables

namespace UnitOfWork

variable {time : Instant} {s : Tables}

/-- Under a slug that is free a team can be founded. -/
theorem foundTeam_free (hk : s.Keyed) (ho : s.Owned) {draft : TeamDraft}
    (hfree : s.findTeamBySlug draft.ownerId draft.slug = none) :
    ∃ s', (foundTeam draft).Gives time s (draft.team (s.lastTeamId + 1)) s' ∧
      s'.teams = s.teams ++ [draft.team (s.lastTeamId + 1)] ∧
      s'.invitations = s.invitations := by
  have hcreate : s.createTeam draft = .ok (draft.team (s.lastTeamId + 1),
      { s with
        teams := s.teams ++ [draft.team (s.lastTeamId + 1)]
        lastTeamId := s.lastTeamId + 1 }) := by
    rw [Tables.createTeam, Tables.slugInUse_none, hfree]
    rfl
  obtain ⟨s', hadd⟩ := Tables.addMember_new
    (s := { s with
      teams := s.teams ++ [draft.team (s.lastTeamId + 1)]
      lastTeamId := s.lastTeamId + 1 })
    ⟨s.lastTeamId + 1, draft.ownerId, .owner, draft.createdAt⟩
    (Tables.isMember_next hk ho draft.ownerId)
  obtain ⟨-, -, -, hjoined⟩ := Tables.addMember_ok hadd
  exact ⟨s', foundTeam_gives.mpr ⟨_, _, hcreate, hadd⟩, hjoined ▸ rfl, hjoined ▸ rfl⟩

/-- Under a slug that is taken none can. -/
theorem foundTeam_taken {draft : TeamDraft}
    (htaken : (s.findTeamBySlug draft.ownerId draft.slug).isSome) :
    ((foundTeam draft).run time s).result = .error (.slugTaken draft.slug) := by
  have hcreate : s.perform (.createTeam draft) = .error (.slugTaken draft.slug) := by
    rw [Tables.perform, Tables.createTeam, Tables.slugInUse_none, if_pos htaken]
  simp only [foundTeam, Work.run_bind, Work.run_perform, Tables.perform_eq, hcreate]
  rfl

/-- An active team can be dissolved, and it is not found any more. -/
theorem dissolveTeam_active (time now : Instant) {team : Int} (h : (s.findTeam team).isSome) :
    ∃ s', (dissolveTeam team now).Gives time s
        (s.invitations.countP fun i => i.isPending && i.teamId = team) s' ∧
      s'.findTeam team = none ∧ s'.members = s.members ∧
      s'.invitations.map (·.tokenHash) = s.invitations.map (·.tokenHash) := by
  have hdelete : s.deleteTeam team now = .ok ((), { s with
      teams := s.teams.map fun t => if t.id = team then t.markDeleted now else t }) := by
    rw [Tables.deleteTeam, if_neg (by rw [Option.isNone_eq_false_iff.mpr h]; exact Bool.false_ne_true)]
  refine ⟨_, dissolveTeam_gives.mpr ⟨_, hdelete, rfl⟩, ?_, rfl, ?_⟩
  · refine List.find?_eq_none.mpr ?_
    intro t ht
    obtain ⟨old, -, rfl⟩ := List.mem_map.mp ht
    by_cases hid : old.id = team
    · rw [if_pos hid]
      simp [Team.markDeleted, Team.isActive]
    · rw [if_neg hid]
      simp [hid]
  · refine Tables.map_tokenHash_of_offer ?_
    intro i _
    split <;> rfl

/-- A team that is not active cannot. -/
theorem dissolveTeam_gone {team : Int} {now : Instant} (h : s.findTeam team = none) :
    ((dissolveTeam team now).run time s).result = .error (.teamNotFound team) := by
  have hdelete : s.perform (.deleteTeam team now) = .error (.teamNotFound team) := by
    rw [Tables.perform, Tables.deleteTeam, h]
    rfl
  simp only [dissolveTeam, Work.run_bind, Work.run_perform, Tables.perform_eq, hdelete]
  rfl

end UnitOfWork

/-! ## The calls -/

namespace Call

/-- The call creates a team of the owner, with a valid name that has the slug and a valid
limit. -/
def CreatesUnder (owner : Int) (slug : String) (call : Call) : Prop :=
  ∃ config input name, call = .act config (.createTeam input) ∧ input.ownerId = owner ∧
    TeamName.validate input.name = .ok name ∧ slugify name = slug ∧
    input.memberLimit.getD config.defaultMemberLimit ≠ 0

/-- The call invites the address to the team on behalf of an owner or admin. -/
def Invites (s : Tables) (team : Int) (address : String) (call : Call) : Prop :=
  ∃ config inviter email role member, call = .act config (.sendInvitation team inviter email role) ∧
    Email.normalize email = address ∧ s.findMember team inviter = some member ∧
    (member.role = .owner ∨ member.role = .admin)

/-- What the call sends is no invitation as an owner, and there is a time at which it
expires. -/
def Sendable (now : Instant) : Call → Prop
  | .act config (.sendInvitation _ _ _ role) =>
    role ≠ .owner ∧ (now.add? config.expiry).isSome = true
  | _ => True

/-- The call deletes the team on behalf of its owner. -/
def Deletes (row : Team) (call : Call) : Prop :=
  ∃ config, call = .act config (.deleteTeam row.id row.ownerId)

end Call

/-! ## Slugs -/

/-- The contest for a slug of an owner's. -/
def Contest.forSlug (w : World Tables) (owner : Int) (slug : String) : Contest Answer where
  now := w.clock
  before := w.store
  taken := fun s => (s.findTeamBySlug owner slug).isSome
  prize := fun answer => ∃ team, answer = .team team ∧ team.ownerId = owner ∧ team.slug = slug
  lost := .slugTaken slug

namespace Program

/-- Founding a team takes a free slug, or finds it taken. -/
theorem contends_founding {w : World Tables} (hk : w.store.Keyed) (ho : w.store.Owned)
    {draft : TeamDraft} (hfree : w.store.findTeamBySlug draft.ownerId draft.slug = none)
    {f : Team → Program Team} (hf : ∀ team, (f team).outcome? = some (.ok team)) {steps : Nat} :
    (atomically (.found draft) >>= f).Contends
      ((Contest.forSlug w draft.ownerId draft.slug).through .team) (steps + 1) none := by
  refine contends_atomically ?_ fun s htaken => UnitOfWork.foundTeam_taken htaken
  obtain ⟨s', hgives, hteams, hinvitations⟩ := UnitOfWork.foundTeam_free hk ho hfree
  refine ⟨_, s', hgives, ?_, ?_, _, hf _, _, rfl, rfl, rfl⟩
  · -- the new team has the slug
    refine List.find?_isSome.mpr ⟨draft.team (w.store.lastTeamId + 1), ?_, ?_⟩
    · rw [hteams]
      exact List.mem_append_right _ List.mem_cons_self
    · simp [TeamDraft.team, Team.isActive]
  · intro token hlacks
    rw [Tables.lacks_iff, hinvitations]
    exact Tables.lacks_iff.mp hlacks

/-- Whoever creates a team under a free slug contends for it. -/
theorem contends_createTeam {w : World Tables} (hk : w.store.Keyed) (ho : w.store.Owned)
    {owner : Int} {slug : String} (hfree : w.store.findTeamBySlug owner slug = none)
    {call : Call} (hcall : call.CreatesUnder owner slug) :
    call.program.Contends (.forSlug w owner slug) 3 none := by
  obtain ⟨config, input, name, rfl, rfl, hname, rfl, hlimit⟩ := hcall
  apply Contends.map
  change (createTeam config input).Contends _ 3 none
  unfold createTeam
  refine contends_ofInput hname ?_
  refine contends_require (decide_eq_true hlimit) ?_
  refine contends_read (·.findTeamBySlug _ _) (fun _ => rfl) ?_ ?_
  · refine contends_require (Option.isNone_iff_eq_none.mpr hfree) ?_
    refine contends_now ?_
    exact contends_founding hk ho hfree fun _ => rfl
  · intro s htaken
    exact .inr (outcome?_require (Option.isNone_eq_false_iff.mpr htaken))

end Program

/-! ## Addresses -/

/-- The address can be invited to the team: the team is active and has a free seat, the
address is valid and no member's, and no invitation is pending for it. -/
structure Tables.Invitable (s : Tables) (row : Team) (address : String) : Prop where
  active : s.findTeam row.id = some row
  room : s.membersOf row.id < row.memberLimit.toNat
  valid : Email.validate address = .ok ()
  stranger : ∀ user, s.findUserByEmail address = some user → s.findMember row.id user.id = none
  unasked : s.findPendingInvitation row.id address = none

/-- The contest for the pending invitation of an address to a team. -/
def Contest.forAddress (w : World Tables) (team : Int) (address : String) : Contest Answer where
  now := w.clock
  before := w.store
  taken := fun s => s.teams = w.store.teams ∧ s.members = w.store.members ∧
    s.users = w.store.users ∧ (s.findPendingInvitation team address).isSome
  prize := fun answer => ∃ sent, answer = .sent sent ∧ sent.invitation.teamId = team ∧
    sent.invitation.email = address
  lost := .alreadyInvited team

namespace Program

section

variable {w : World Tables} {team : Int} {address : String} {steps : Nat}

/-- A call that looks for the pending invitation goes on, or it comes too late. -/
theorem contends_outstanding {held : Option String}
    (hunasked : w.store.findPendingInvitation team address = none) {f : Unit → Program SentInvitation}
    (h : (f ()).Contends ((Contest.forAddress w team address).through .sent) steps held) :
    (ofWork (Work.perform (.findPendingInvitation team address)) >>= fun outstanding =>
      ofWork (Work.require outstanding.isNone (.alreadyInvited team)) >>= f).Contends
        ((Contest.forAddress w team address).through .sent) (steps + 1) held := by
  refine contends_read (·.findPendingInvitation team address) (fun _ => rfl) ?_ ?_
  · exact contends_require (Option.isNone_iff_eq_none.mpr hunasked) h
  · rintro s ⟨-, -, -, hpending⟩
    exact .inr (outcome?_require (Option.isNone_eq_false_iff.mpr hpending))

/-- Storing an invitation takes the address, or finds it taken. -/
theorem contends_issuing {draft : InvitationDraft} {own : String}
    (hteam : draft.teamId = team) (haddress : draft.email = address)
    (hhash : draft.tokenHash = Token.hash own)
    (hunasked : w.store.findPendingInvitation team address = none)
    {f : Invitation → Program SentInvitation}
    (hf : ∀ invitation, ∃ sent, (f invitation).outcome? = some (.ok sent) ∧
      sent.invitation = invitation) :
    (ofWork (Work.perform (.createInvitation draft)) >>= f).Contends
      ((Contest.forAddress w team address).through .sent) (steps + 1) (some own) := by
  subst hteam haddress
  refine contends_write ?_ ?_
  · intro hlacks
    have hperform := Tables.createInvitation_new (s := w.store) draft
      (by rw [hhash, Option.isSome_eq_false_iff, Option.isNone_iff_eq_none]; exact hlacks)
      (by rw [hunasked]; rfl)
    obtain ⟨sent, hsent, hinvitation⟩ := hf (draft.invitation (w.store.lastInvitationId + 1))
    refine ⟨_, _, hperform, ⟨rfl, rfl, rfl, ?_⟩, ?_, sent, hsent, sent, rfl, ?_⟩
    · -- the new invitation is pending
      refine List.find?_isSome.mpr ⟨draft.invitation (w.store.lastInvitationId + 1),
        List.mem_append_right _ List.mem_cons_self, ?_⟩
      simp [InvitationDraft.invitation, Invitation.isPending]
    · intro token htoken hother
      simp only [Tables.lacks_iff, List.map_append, List.mem_append, not_or] at htoken ⊢
      refine ⟨htoken, ?_⟩
      simp [InvitationDraft.invitation, hhash, hother]
    · rw [hinvitation]
      exact ⟨rfl, rfl⟩
  · rintro s ⟨-, -, -, hpending⟩ hlacks
    have hhashes : (s.findInvitationByToken draft.tokenHash).isSome = false := by
      rw [hhash, Option.isSome_eq_false_iff, Option.isNone_iff_eq_none]
      exact hlacks
    rw [Tables.perform, Tables.createInvitation, hhashes, if_neg Bool.false_ne_true, if_pos hpending]
    rfl

/-- What is left of sending an invitation once the invitee was checked: a token is drawn, and
the invitation is stored. -/
def issueInvitation (config : Config) (team inviter : Int) (role : Role)
    (checked : String × Option User) : Program SentInvitation := do
  let token ← Program.token config.tokenLength
  let now ← Work.now
  let expiresAt ← Program.later now config.expiry
  let invitation ← Work.perform (.createInvitation
    { teamId := team
      invitedBy := inviter
      email := checked.1
      inviteeId := checked.2.map (·.id)
      role
      tokenHash := Token.hash token
      expiresAt
      createdAt := now })
  Program.log (.invitationSent invitation.teamId invitation.id invitation.role invitation.invitedBy)
  return ⟨invitation, ⟨token⟩, (config.acceptUrl token).map (⟨·⟩)⟩

/-- An invitation is sent by checking the invitee and issuing it. -/
theorem sendInvitation_eq (config : Config) (team inviter : Int) (email : String) (role : Role) :
    sendInvitation config team inviter email role =
      checkInvitee team inviter email role >>= issueInvitation config team inviter role := rfl

theorem contends_issueInvitation {config : Config} {inviter : Int} {role : Role}
    {invitee : Option User} (hunasked : w.store.findPendingInvitation team address = none)
    (hexpiry : (w.clock.add? config.expiry).isSome = true) :
    (issueInvitation config team inviter role (address, invitee)).Contends
      ((Contest.forAddress w team address).through .sent) (steps + 3) none := by
  obtain ⟨expiresAt, hexpires⟩ := Option.isSome_iff_exists.mp hexpiry
  refine contends_token ?_
  intro token
  refine contends_now ?_
  refine contends_later hexpires ?_
  refine contends_issuing ?_ ?_ ?_ hunasked ?_
  · rfl
  · rfl
  · rfl
  · intro invitation
    exact ⟨⟨invitation, ⟨token⟩, _⟩, rfl, rfl⟩

end

/-- Whoever checks an address that can be invited goes on, or comes too late. -/
theorem contends_checkInvitee (steps : Nat) {w : World Tables} {row : Team} {email : String}
    {inviter : Int} {role : Role} {member : Member}
    (hinvitable : w.store.Invitable row (Email.normalize email))
    (hmember : w.store.findMember row.id inviter = some member)
    (hrole : member.role = .owner ∨ member.role = .admin) (hinvites : role ≠ .owner)
    {f : String × Option User → Program SentInvitation}
    (h : ∀ invitee steps, (f (Email.normalize email, invitee)).Contends
      ((Contest.forAddress w row.id (Email.normalize email)).through .sent) (steps + 3) none) :
    (checkInvitee row.id inviter email role >>= f).Contends
      ((Contest.forAddress w row.id (Email.normalize email)).through .sent) (steps + 9) none := by
  unfold checkInvitee Membership.require requireTeam Membership.count
  simp only [liftM_work, ofWork_bind, bind_assoc, ofWork_pure, pure_bind]
  -- what the inviter may do, the room there is and the users do not change
  refine contends_read_stable (fun s => s.findMember row.id inviter) (fun _ => rfl) ?_ ?_
  · rintro s ⟨-, hmembers, -⟩
    simp only [Tables.findMember, hmembers]
    rfl
  refine contends_found hmember ?_
  refine contends_require ?_ ?_
  · rcases hrole with hrole | hrole <;> rw [hrole] <;> rfl
  refine contends_require (decide_eq_true hinvites) ?_
  refine contends_require ?_ ?_
  · rcases hrole with hrole | hrole <;> rw [hrole] <;> exact decide_eq_true hinvites
  refine contends_read_stable (fun s => s.findTeam row.id) (fun _ => rfl) ?_ ?_
  · rintro s ⟨hteams, -⟩
    simp only [Tables.findTeam, hteams]
    rfl
  refine contends_found hinvitable.active ?_
  refine contends_read_stable (fun s => s.countMembers row.id) (fun _ => rfl) ?_ ?_
  · rintro s ⟨-, hmembers, -⟩
    simp only [Tables.countMembers, hmembers]
    rfl
  have hroom : w.store.countMembers row.id < row.memberLimit :=
    Tables.countMembers_lt.mpr hinvitable.room
  refine contends_require (decide_eq_true hroom) ?_
  rw [hinvitable.valid]
  refine contends_ofInput rfl ?_
  refine contends_userByEmail ?_ ?_
  · rintro s ⟨-, -, husers, -⟩
    simp only [Tables.findUserByEmail, husers]
    rfl
  cases hinvitee : ((Contest.forAddress w row.id (Email.normalize email)).through
      Answer.sent).before.findUserByEmail (Email.normalize email) with
  | none =>
    simp only [bind_assoc, pure_bind]
    exact contends_outstanding hinvitable.unasked (h _ (steps + 1))
  | some user =>
    simp only [bind_assoc, pure_bind]
    refine contends_read_stable (fun s => s.findMember row.id user.id) (fun _ => rfl) ?_ ?_
    · rintro s ⟨-, hmembers, -⟩
      simp only [Tables.findMember, hmembers]
      rfl
    have hstranger := hinvitable.stranger user hinvitee
    refine contends_require (Option.isNone_iff_eq_none.mpr hstranger) ?_
    exact contends_outstanding hinvitable.unasked (h _ steps)

/-- Whoever sends an invitation to an address that can be invited contends for it. -/
theorem contends_sendInvitation {w : World Tables} {row : Team} {address : String}
    (hinvitable : w.store.Invitable row address) {call : Call}
    (hcall : call.Invites w.store row.id address) (hsendable : call.Sendable w.clock) :
    call.program.Contends (.forAddress w row.id address) 9 none := by
  obtain ⟨config, inviter, email, role, member, rfl, rfl, hmember, hrole⟩ := hcall
  obtain ⟨hinvites, hexpiry⟩ := hsendable
  apply Contends.map
  change (sendInvitation config row.id inviter email role).Contends _ 9 none
  rw [sendInvitation_eq]
  refine contends_checkInvitee 0 hinvitable hmember hrole hinvites ?_
  intro invitee steps
  exact contends_issueInvitation hinvitable.unasked hexpiry

end Program

/-! ## Deletions -/

/-- The contest for the deletion of a team, which revokes its pending invitations. -/
def Contest.forDeletion (w : World Tables) (team : Int) : Contest Answer where
  now := w.clock
  before := w.store
  taken := fun s => s.findTeam team = none ∧ s.members = w.store.members
  prize := fun answer => answer =
    .count (w.store.invitations.countP fun i => i.isPending && i.teamId = team)
  lost := .teamNotFound team

namespace Program

/-- The owner of an active team, deleting it, contends for its deletion. -/
theorem contends_deleteTeam {w : World Tables} (hk : w.store.Keyed) (ho : w.store.Owned)
    {row : Team} (hactive : w.store.findTeam row.id = some row) {call : Call}
    (hcall : call.Deletes row) : call.program.Contends (.forDeletion w row.id) 4 none := by
  obtain ⟨config, rfl⟩ := hcall
  obtain ⟨hrow, -, -⟩ := Tables.findTeam_some hactive
  obtain ⟨member, hmember, hrole⟩ := ho.findMember_owner hk hrow
  apply Contends.map
  change (deleteTeam row.id row.ownerId).Contends _ 4 none
  unfold deleteTeam requireTeam
  simp only [liftM_work, ofWork_bind, bind_assoc]
  refine contends_read (fun s => s.findTeam row.id) (fun _ => rfl) ?_ ?_
  · refine contends_found hactive ?_
    refine contends_read_stable (fun s => s.findMember row.id row.ownerId)
      (fun _ => rfl) ?_ ?_
    · rintro s ⟨-, hmembers⟩
      simp only [Tables.findMember, hmembers]
      rfl
    refine contends_found hmember ?_
    refine contends_require (by rw [hrole]; rfl) ?_
    refine contends_now ?_
    refine contends_atomically ?_ fun s hgone => UnitOfWork.dissolveTeam_gone hgone.1
    obtain ⟨s', hgives, hgone, hmembers, hdigests⟩ := UnitOfWork.dissolveTeam_active
      w.clock w.clock (Option.isSome_iff_exists.mpr ⟨row, hactive⟩)
    refine ⟨_, s', hgives, ⟨hgone, hmembers⟩, ?_, _, rfl, rfl⟩
    intro token hlacks
    rw [Tables.lacks_iff, hdigests]
    exact Tables.lacks_iff.mp hlacks
  · rintro s ⟨hgone, -⟩
    exact .inr (outcome?_found hgone)

end Program

/-! ## Races -/

namespace Program

/-- Creating a team draws no token. -/
theorem tokenless_createTeam (config : Config) (input : CreateTeam) :
    (createTeam config input).Tokenless := by
  refine (tokenless_ofWork _).bind fun name => ?_
  refine (tokenless_ofWork _).bind fun _ => ?_
  refine (tokenless_ofWork _).bind fun other => ?_
  refine (tokenless_ofWork _).bind fun _ => ?_
  refine (tokenless_ofWork _).bind fun now => ?_
  refine (tokenless_atomically _).bind fun team => ?_
  exact (tokenless_log _).bind fun _ => trivial

/-- Nor does deleting one. -/
theorem tokenless_deleteTeam (team requester : Int) : (deleteTeam team requester).Tokenless := by
  refine (tokenless_ofWork _).bind fun found => ?_
  refine (tokenless_ofWork _).bind fun member => ?_
  refine (tokenless_ofWork _).bind fun member => ?_
  refine (tokenless_ofWork _).bind fun _ => ?_
  refine (tokenless_ofWork _).bind fun now => ?_
  refine (tokenless_atomically _).bind fun cancelled => ?_
  exact (tokenless_log _).bind fun _ => trivial

end Program

namespace Pool

/-- Calls that create a team of one owner under one slug, which is free, run at the same
time. -/
structure SlugRace (before : Pool) (owner : Int) (slug : String) (calls : List Call)
    (events : List Event) : Prop where
  nonempty : calls ≠ []
  free : before.world.store.findTeamBySlug owner slug = none
  creates : ∀ call ∈ calls, call.CreatesUnder owner slug
  completes : before.Completes calls 3 events

/-- Calls that invite one address, which can be invited, run at the same time, and draw
tokens with new digests. -/
structure InvitationRace (before : Pool) (row : Team) (address : String) (calls : List Call)
    (events : List Event) : Prop where
  nonempty : calls ≠ []
  invitable : before.world.store.Invitable row address
  invites : ∀ call ∈ calls, call.Invites before.world.store row.id address
  completes : before.Completes calls 9 events
  distinct : (before.run (calls.map .begins)).Distinct before.threads.length calls.length events

/-- Calls by which its owner deletes an active team run at the same time. -/
structure DeletionRace (before : Pool) (row : Team) (calls : List Call) (events : List Event) :
    Prop where
  nonempty : calls ≠ []
  active : before.world.store.findTeam row.id = some row
  deletes : ∀ call ∈ calls, call.Deletes row
  completes : before.Completes calls 4 events

/-- One call of a race for a slug creates the team, and the others are told that the slug is
taken. -/
def OneCreates (before : Pool) (owner : Int) (slug : String) (calls : List Call)
    (events : List Event) : Prop :=
  before.OneWins calls events
    (fun answer => ∃ team, answer = .team team ∧ team.ownerId = owner ∧ team.slug = slug)
    (.slugTaken slug)

/-- One call of a race for an invitation sends it, and the others are told that the address
is invited already. -/
def OneInvites (before : Pool) (row : Team) (address : String) (calls : List Call)
    (events : List Event) : Prop :=
  before.OneWins calls events
    (fun answer => ∃ sent, answer = .sent sent ∧ sent.invitation.teamId = row.id ∧
      sent.invitation.email = address)
    (.alreadyInvited row.id)

/-- One call of a race for a deletion deletes the team and counts the invitations that were
pending before, and the others do not find the team. -/
def OneDeletes (before : Pool) (row : Team) (calls : List Call) (events : List Event) : Prop :=
  before.OneWins calls events
    (fun answer => answer =
      .count (before.world.store.invitations.countP fun i => i.isPending && i.teamId = row.id))
    (.teamNotFound row.id)

/-- Racing creators have exactly one winner, in every pool that starts on an empty store and
in whatever order the calls take their steps. Invitations are sendable: none is for an
owner, and there is a time at which each expires. -/
theorem one_creator_wins (clock : Instant) (random : RandomSource) (history : List Event)
    (calls : List Call) (events : List Event) :
    let before := (start clock random).run history
    (∀ owner slug, before.SlugRace owner slug calls events →
      before.OneCreates owner slug calls events) ∧
    (∀ row address, before.InvitationRace row address calls events →
      (∀ call ∈ calls, call.Sendable before.world.clock) →
      before.OneInvites row address calls events) ∧
    (∀ row, before.DeletionRace row calls events → before.OneDeletes row calls events) := by
  intro before
  obtain ⟨hk, ho⟩ := (fits_start clock random history).inv
  refine ⟨?creates, ?invites, ?deletes⟩
  case creates =>
    intro owner slug hrace
    refine one_wins (.forSlug before.world owner slug) rfl rfl hrace.nonempty ?_
      hrace.completes ?_
    · intro call hcall
      exact Program.contends_createTeam hk ho hrace.free (hrace.creates call hcall)
    · refine distinct_of_tokenless ?_ events
      intro call hcall
      obtain ⟨config, input, name, rfl, -⟩ := hrace.creates call hcall
      exact (Program.tokenless_createTeam config input).map _
  case invites =>
    intro row address hrace hsendable
    refine one_wins (.forAddress before.world row.id address) rfl rfl hrace.nonempty ?_
      hrace.completes hrace.distinct
    intro call hcall
    exact Program.contends_sendInvitation hrace.invitable (hrace.invites call hcall)
      (hsendable call hcall)
  case deletes =>
    intro row hrace
    refine one_wins (.forDeletion before.world row.id) rfl rfl hrace.nonempty ?_
      hrace.completes ?_
    · intro call hcall
      exact Program.contends_deleteTeam hk ho hrace.active (hrace.deletes call hcall)
    · refine distinct_of_tokenless ?_ events
      intro call hcall
      obtain ⟨config, rfl⟩ := hrace.deletes call hcall
      exact (Program.tokenless_deleteTeam row.id row.ownerId).map _

/-- Two calls that begin after `oneSeat` take nine steps each, in turn. -/
def inTurn : List Event :=
  (List.replicate 9 [.proceeds 3, .proceeds 4]).flatten

/-- The owner creates a team twice, under two names with one slug. -/
def twoHubs : List Call :=
  ["Hub", " hub! "].map fun name => .act .default (.createTeam
    { ownerId := 7, name, description := none, visibility := .everyone, memberLimit := none })

/-- The owner invites the same address twice, written in two ways. -/
def twoInvitations (config : Config) (role : Role) : List Call :=
  ["Cid@Example.org", " cid@example.org"].map fun email =>
    .act config (.sendInvitation 1 7 email role)

/-- The owner deletes the team twice. -/
def twoDeletions : List Call :=
  List.replicate 2 (.act .default (.deleteTeam 1 7))

/-- The team of `oneSeat`. -/
def seatedTeam : Team :=
  { id := 1
    ownerId := 7
    name := "Core"
    slug := "core"
    description := none
    visibility := .everyone
    memberLimit := 2
    status := .active
    createdAt := .epoch
    updatedAt := .epoch }

/-- How things stand after `oneSeat`: the team is there, and nobody has heard of Cid. -/
theorem oneSeat_stands :
    ((start .epoch .sequence).run oneSeat).threads.length = 3 ∧
    let s := ((start .epoch .sequence).run oneSeat).world.store
    s.findTeam 1 = some seatedTeam ∧ s.membersOf 1 = 1 ∧ s.findTeamBySlug 7 "hub" = none ∧
      s.findUserByEmail "cid@example.org" = none ∧
      s.findPendingInvitation 1 "cid@example.org" = none := by
  decide +kernel

theorem inTurn_completes {calls : List Call} (hcalls : calls.length = 2) {steps : Nat}
    (hsteps : steps ≤ 9) :
    ((start .epoch .sequence).run oneSeat).Completes calls steps inTurn := by
  obtain ⟨hthreads, -⟩ := oneSeat_stands
  constructor
  · rw [hthreads, hcalls]
    decide +kernel
  · rw [hthreads, hcalls]
    intro j hj
    have hnine : ∀ j < 2, Event.stepsOf inTurn (3 + j) = 9 := by decide +kernel
    exact .inl (hnine j hj ▸ hsteps)

theorem seatedTeam_invitable :
    ((start .epoch .sequence).run oneSeat).world.store.Invitable seatedTeam "cid@example.org" := by
  obtain ⟨-, hactive, hmembers, -, hnobody, hunasked⟩ := oneSeat_stands
  refine ⟨hactive, ?_, by decide +kernel, ?_, hunasked⟩
  · rw [show seatedTeam.id = 1 from rfl, hmembers]
    decide
  · intro user huser
    rw [hnobody] at huser
    cases huser

/-- Two invitations of one address race, whatever the role and the settings. -/
theorem twoInvitations_race (config : Config) (role : Role)
    (hdistinct : (((start .epoch .sequence).run oneSeat).run
      ((twoInvitations config role).map .begins)).Distinct 3 2 inTurn) :
    ((start .epoch .sequence).run oneSeat).InvitationRace seatedTeam "cid@example.org"
      (twoInvitations config role) inTurn where
  nonempty := List.cons_ne_nil _ _
  invitable := seatedTeam_invitable
  invites := by
    obtain ⟨hk, ho⟩ := (fits_start .epoch .sequence oneSeat).inv
    obtain ⟨-, hactive, -⟩ := oneSeat_stands
    obtain ⟨hteam, -, -⟩ := Tables.findTeam_some hactive
    obtain ⟨member, hmember, hrole⟩ := ho.findMember_owner hk hteam
    intro call hcall
    simp only [twoInvitations, List.map_cons, List.map_nil, List.mem_cons, List.not_mem_nil,
      or_false] at hcall
    rcases hcall with rfl | rfl
    · exact ⟨config, 7, _, role, member, rfl, by decide +kernel, hmember, .inl hrole⟩
    · exact ⟨config, 7, _, role, member, rfl, by decide +kernel, hmember, .inl hrole⟩
  completes := inTurn_completes rfl (Nat.le_refl 9)
  distinct := by
    rw [oneSeat_stands.1]
    exact hdistinct

/-- Two calls race for each: the first one to write wins. -/
theorem one_creator_wins_of_two :
    ((start .epoch .sequence).run oneSeat).OneCreates 7 "hub" twoHubs inTurn ∧
    ((start .epoch .sequence).run oneSeat).OneInvites seatedTeam "cid@example.org"
      (twoInvitations .default .member) inTurn ∧
    ((start .epoch .sequence).run oneSeat).OneDeletes seatedTeam twoDeletions inTurn := by
  obtain ⟨-, hactive, -, hfree, -⟩ := oneSeat_stands
  refine ⟨?creates, ?invites, ?deletes⟩
  case creates =>
    refine (one_creator_wins .epoch .sequence oneSeat twoHubs inTurn).1 7 "hub"
      ⟨List.cons_ne_nil _ _, hfree, ?_, inTurn_completes rfl (by decide)⟩
    intro call hcall
    simp only [twoHubs, List.map_cons, List.map_nil, List.mem_cons, List.not_mem_nil,
      or_false] at hcall
    rcases hcall with rfl | rfl
    · exact ⟨_, _, "Hub", rfl, rfl, by decide +kernel, by decide +kernel, by decide⟩
    · exact ⟨_, _, "hub!", rfl, rfl, by decide +kernel, by decide +kernel, by decide⟩
  case invites =>
    refine (one_creator_wins .epoch .sequence oneSeat (twoInvitations .default .member)
      inTurn).2.1 seatedTeam "cid@example.org"
        (twoInvitations_race .default .member (by decide +kernel)) ?_
    intro call hcall
    simp only [twoInvitations, List.map_cons, List.map_nil, List.mem_cons, List.not_mem_nil,
      or_false] at hcall
    rcases hcall with rfl | rfl
    · exact ⟨by decide, by decide +kernel⟩
    · exact ⟨by decide, by decide +kernel⟩
  case deletes =>
    refine (one_creator_wins .epoch .sequence oneSeat twoDeletions inTurn).2.2 seatedTeam
      ⟨List.cons_ne_nil _ _, hactive, ?_, inTurn_completes rfl (by decide)⟩
    intro call hcall
    exact ⟨.default, List.eq_of_mem_replicate hcall⟩

/-- Settings under which no invitation ends within the range of time. -/
def endless : Config :=
  { Config.default with expiry := .ofDays 100000000 }

/-- Calls none of which succeeds have no winner. -/
theorem not_oneWins {before : Pool} {calls : List Call} {events : List Event}
    (hfail : ∀ j < calls.length, ∀ thread ∈
      ((before.run (calls.map .begins)).run events).threads[before.threads.length + j]?,
      thread.succeeded = false) (prize : Answer → Prop) (lost : TeamError) :
    ¬ before.OneWins calls events prize lost := by
  rintro ⟨winner, hlt, hall⟩
  obtain ⟨thread, hthread, hresult⟩ := hall winner hlt
  rw [if_pos rfl] at hresult
  obtain ⟨answer, hok, -⟩ := hresult
  have hfailed := hfail winner hlt thread hthread
  rw [Thread.succeeded, hok] at hfailed
  cases hfailed

/-- Of invitations at the owner's role none is sent, and of invitations that would expire out
of the range of time none is either. -/
theorem unsendable_race_has_no_winner :
    (((start .epoch .sequence).run oneSeat).InvitationRace seatedTeam "cid@example.org"
        (twoInvitations .default .owner) inTurn ∧
      ¬ ((start .epoch .sequence).run oneSeat).OneInvites seatedTeam "cid@example.org"
        (twoInvitations .default .owner) inTurn) ∧
    ((start .epoch .sequence).run oneSeat).InvitationRace seatedTeam "cid@example.org"
        (twoInvitations endless .member) inTurn ∧
      ¬ ((start .epoch .sequence).run oneSeat).OneInvites seatedTeam "cid@example.org"
        (twoInvitations endless .member) inTurn := by
  refine ⟨⟨?_, ?_⟩, ?_, ?_⟩
  · exact twoInvitations_race .default .owner (by decide +kernel)
  · exact not_oneWins (by decide +kernel) _ _
  · exact twoInvitations_race endless .member (by decide +kernel)
  · exact not_oneWins (by decide +kernel) _ _

end Pool

end Roster
