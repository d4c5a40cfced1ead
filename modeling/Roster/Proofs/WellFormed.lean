import Roster.Proofs.Capacity
import Roster.Proofs.Input
import Roster.Proofs.Sequence

/-!
# Well-formed tables

* `Team.WellFormed`, `Invitation.WellFormed` — what every stored row satisfies by itself;
* `Tables.WellFormed` — and what the rows of the three tables satisfy together: members
  and invitations are of stored teams, and no team has more members than it may have;
* `Call.Deed.wellFormed` — a deed that nothing comes between keeps it, one clause at a
  time;
* `World.afterAll_wellFormed` — so it holds after any actions, one after another;
* `Tables.Offered` — what of it is about invitations alone, and holds whatever runs together
  (`Pool.offered_fits`).

Between other calls the rest may fail: an update checks the limit in an earlier step than it
writes it.
-/

namespace Roster

/-- A team has a positive limit, a checked name, and the slug of that name. -/
structure Team.WellFormed (team : Team) : Prop where
  limit : 1 ≤ team.memberLimit.toNat
  named : TeamName.Checked team.name
  slug : team.slug = slugify team.name

/-- An invitation is for a checked and normalized address, and not for an owner. -/
structure Invitation.WellFormed (invitation : Invitation) : Prop where
  address : Email.validate invitation.email = .ok ()
  normalized : Email.normalize invitation.email = invitation.email
  role : invitation.role ≠ .owner

/-- Rows are well formed, refer to stored teams, and are no more than the teams allow. -/
structure Tables.WellFormed (s : Tables) : Prop where
  members : ∀ m ∈ s.members, ∃ t ∈ s.teams, t.id = m.teamId
  invitations : ∀ i ∈ s.invitations, ∃ t ∈ s.teams, t.id = i.teamId
  rooms : ∀ t ∈ s.teams, s.membersOf t.id ≤ t.memberLimit.toNat
  teams : ∀ t ∈ s.teams, t.WellFormed
  offers : ∀ i ∈ s.invitations, i.WellFormed

namespace Tables

theorem empty_wellFormed : empty.WellFormed where
  members := fun _ hm => absurd hm List.not_mem_nil
  invitations := fun _ hi => absurd hi List.not_mem_nil
  rooms := fun _ ht => absurd ht List.not_mem_nil
  teams := fun _ ht => absurd ht List.not_mem_nil
  offers := fun _ hi => absurd hi List.not_mem_nil

variable {s s' : Tables}

/-- Well-formedness is about teams, members and invitations only. -/
theorem WellFormed.of_eq (h : s.WellFormed) (hteams : s'.teams = s.teams)
    (hmembers : s'.members = s.members) (hinvitations : s'.invitations = s.invitations) :
    s'.WellFormed where
  members := by
    rw [hteams, hmembers]
    exact h.members
  invitations := by
    rw [hteams, hinvitations]
    exact h.invitations
  rooms := by
    simp only [membersOf, hteams, hmembers]
    exact h.rooms
  teams := by
    rw [hteams]
    exact h.teams
  offers := by
    rw [hinvitations]
    exact h.offers

/-- The count of a team that is within its limit is exact. -/
theorem WellFormed.count_eq (h : s.WellFormed) {t : Team} (ht : t ∈ s.teams) :
    (s.countMembers t.id).toNat = s.membersOf t.id := by
  have hroom := h.rooms t ht
  have hmax : t.memberLimit.toNat ≤ maxCount := Nat.le_of_lt_succ t.memberLimit.toNat_lt
  rw [countMembers_toNat]
  omega

end Tables

section

variable {call : Call} {w : World Tables} {s : Tables} {result : Except Failure Answer}

/-! ## Rows that a deed writes -/

/-- A founded team is well formed. -/
theorem Founding.wellFormed {rely : Rely} {config : Config} {input : CreateTeam} {name : String}
    {now : Instant} {team : Team} (h : Founding rely config input name now w s team) :
    team.WellFormed := by
  obtain ⟨founded, member, hcreate, -⟩ := h.written
  obtain ⟨-, rfl, -⟩ := Tables.createTeam_ok hcreate
  exact
    { limit := Nat.pos_of_ne_zero fun hzero => h.limited (UInt32.toNat_inj.mp hzero)
      named := TeamName.validate_ok h.named
      slug := rfl }

/-- A well-formed row that an update changes is well formed. -/
theorem Update.wellFormed {rely : Rely} {input : UpdateTeam} {name : Option String} {before : Team}
    {now : Instant} {team : Team} (h : Update rely input name before now w s team)
    (hbefore : before.WellFormed) : team.WellFormed := by
  obtain ⟨-, -, rfl, -⟩ := Tables.updateTeam_ok h.written
  obtain ⟨hname, hslug, -, -, hlimit⟩ := input.revise_fields name before now
  have hnamed := h.named
  constructor
  · rw [hlimit]
    cases hgiven : input.memberLimit with
    | none => exact hbefore.limit
    | some limit =>
      exact Nat.pos_of_ne_zero fun hzero => (h.limited limit hgiven).1 (UInt32.toNat_inj.mp hzero)
  · rw [hname]
    cases name with
    | none => exact hbefore.named
    | some checked =>
      generalize input.name = given at hnamed
      cases hnamed with
      | some hvalid => exact TeamName.validate_ok hvalid
  · rw [hslug, hname]
    cases name with
    | none => exact hbefore.slug
    | some checked => rfl

/-- What a sending stores is well formed. -/
theorem Sending.wellFormed {rely : Rely} {config : Config} {team inviter : Int} {email : String}
    {role : Role} {invitee : Option User} {token : String} {now expiresAt : Instant}
    {invitation : Invitation}
    (h : Sending rely config team inviter email role invitee token now expiresAt w s invitation) :
    invitation.WellFormed := by
  obtain ⟨-, -, rfl, -⟩ := Tables.createInvitation_ok h.written
  exact
    { address := h.address
      normalized := Email.normalize_eq h.address
      role := by
        show role ≠ .owner
        rintro rfl
        exact absurd h.invitable (by decide) }

/-- Well-formedness is about the offer. -/
theorem Invitation.WellFormed.of_offer {i j : Invitation} (h : i.WellFormed)
    (hoffer : i.offer = j.offer) : j.WellFormed := by
  obtain ⟨-, -, hemail, hrole, -⟩ := Invitation.offer_eq hoffer
  exact ⟨hemail ▸ h.address, hemail ▸ h.normalized, hrole ▸ h.role⟩

/-- An invitation after a deed makes an offer that was there before, or was just sent. -/
theorem Call.Deed.invitation_origin {rely : Rely} (horderly : rely.Orderly) (hinv : rely.inv w)
    (h : call.Deed rely w s result) {i : Invitation} (hi : i ∈ s.invitations) :
    (∃ j ∈ w.store.invitations, j.offer = i.offer) ∨
      ∃ config email invitee token now expiresAt,
        call = .act config (.sendInvitation i.teamId i.invitedBy email i.role) ∧
        Sending rely config i.teamId i.invitedBy email i.role invitee token now expiresAt w s i := by
  by_cases hold : ∃ j ∈ w.store.invitations, j.id = i.id
  · obtain ⟨j, hj, hid⟩ := hold
    obtain ⟨i', hi', hoffer, -⟩ := (h.evolves horderly hinv).invitations j hj
    have hkeyed := h.keyed horderly hinv
    obtain rfl := hkeyed.invitation_eq hi' hi ((Invitation.offer_eq hoffer).1.trans hid)
    exact .inl ⟨j, hj, hoffer.symm⟩
  · have hnew : ∀ j ∈ w.store.invitations, j.id ≠ i.id := fun j hj hid => hold ⟨j, hj, hid⟩
    exact .inr (h.invitation_issued hi hnew)

/-- Invitations stay with stored teams. -/
theorem Call.Deed.invitation_team {rely : Rely} (horderly : rely.Orderly) (hinv : rely.inv w)
    (h : call.Deed rely w s result)
    (hteams : ∀ i ∈ w.store.invitations, ∃ t ∈ w.store.teams, t.id = i.teamId) :
    ∀ i ∈ s.invitations, ∃ t ∈ s.teams, t.id = i.teamId := by
  intro i hi
  have hteam : ∃ t ∈ w.store.teams, t.id = i.teamId := by
    rcases h.invitation_origin horderly hinv hi with
      ⟨j, hj, hoffer⟩ | ⟨_, _, _, _, _, _, -, hsending⟩
    · rw [← (Invitation.offer_eq hoffer).2.1]
      exact hteams j hj
    · obtain ⟨found, hfound, -⟩ := hsending.room
      obtain ⟨hid, t, ht, htid, -⟩ := hfound.team horderly
      exact ⟨t, ht, htid.trans hid⟩
  obtain ⟨t, ht, hid⟩ := hteam
  obtain ⟨t', ht', hid', -⟩ := (h.evolves horderly hinv).teams t ht
  exact ⟨t', ht', hid'.trans hid⟩

/-- Invitations stay well formed. -/
theorem Call.Deed.invitation_wellFormed {rely : Rely} (horderly : rely.Orderly) (hinv : rely.inv w)
    (h : call.Deed rely w s result) (hoffers : ∀ i ∈ w.store.invitations, i.WellFormed) :
    ∀ i ∈ s.invitations, i.WellFormed := by
  intro i hi
  rcases h.invitation_origin horderly hinv hi with
    ⟨j, hj, hoffer⟩ | ⟨_, _, _, _, _, _, -, hsending⟩
  · exact (hoffers j hj).of_offer hoffer
  · exact hsending.wellFormed

/-! ## Deeds done alone -/

variable {tables : Tables} {now : Instant} {random : RandomSource}

/-- The row that an update reads is the one that it changes. -/
theorem Update.before_mem {input : UpdateTeam} {name : Option String} {before : Team}
    {time : Instant} {team : Team}
    (h : Update (Rely.alone tables now) input name before time w s team) :
    before ∈ tables.teams ∧ before.id = input.teamId := by
  obtain ⟨_, hfound⟩ := h.found.alone
  obtain ⟨hmem, hid, -⟩ := Tables.findTeam_some hfound
  exact ⟨hmem, hid⟩

/-- A limit that is written is no less than the number of members. -/
theorem Update.within (hw : tables.WellFormed) {input : UpdateTeam} {name : Option String}
    {before : Team} {time : Instant} {team : Team}
    (h : Update (Rely.alone tables now) input name before time ⟨tables, now, random⟩ s team) :
    s.membersOf team.id ≤ team.memberLimit.toNat := by
  obtain ⟨hbefore, -⟩ := h.before_mem
  obtain ⟨-, -, rfl, -⟩ := Tables.updateTeam_ok h.written
  obtain ⟨-, -, -, -, hlimit⟩ := input.revise_fields name before time
  have hmembers : s.members = tables.members := h.frame.1
  rw [UpdateTeam.revise_id, Tables.membersOf, hmembers, hlimit]
  cases hgiven : input.memberLimit with
  | none => exact hw.rooms before hbefore
  | some limit =>
    obtain ⟨_, hcount, -⟩ := ((h.limited limit hgiven).2).alone
    have hle := UInt32.le_iff_toNat_le.mp hcount
    rw [hw.count_eq hbefore] at hle
    exact hle

/-- Nobody's room is exceeded by a deed done alone. -/
theorem Call.Deed.rooms (hk : tables.Keyed) (ho : tables.Owned) (hw : tables.WellFormed)
    (h : call.Deed (Rely.alone tables now) ⟨tables, now, random⟩ s result) :
    ∀ t ∈ s.teams, s.membersOf t.id ≤ t.memberLimit.toNat := by
  intro t ht
  rcases h.team_written ht with hold | ⟨config, input, name, time, hfounding⟩ |
    ⟨input, name, before, time, hupdate⟩ | ⟨old, requester, time, count, hold, rfl, hdissolution⟩
  · -- a row that was there before may get a new member
    have hroom := hw.rooms t hold
    rcases h.members with heq | hdeed
    · rw [Tables.membersOf, heq]
      exact hroom
    · cases hdeed with
      | @founds _ _ _ _ _ _ team hfounding =>
        have hid : team.id = tables.lastTeamId + 1 := hfounding.teams_eq.1
        have hle := hk.teams_le t hold
        have hfresh : team.id ≠ t.id := by omega
        rw [hfounding.membersOf_eq t.id, if_neg hfresh]
        exact hroom
      | changesRole _ hchange =>
        rw [Tables.membersOf_setRole t.id hchange.written]
        exact hroom
      | removes _ hremoval =>
        exact Nat.le_trans (Tables.membersOf_removeMember_le t.id hremoval.written) hroom
      | @accepts _ _ _ _ _ _ _ member hacceptance =>
        by_cases hid : t.id = member.teamId
        · have hwithin := (hacceptance.within hk).2 t ht hid
          rwa [← hid] at hwithin
        · rw [hacceptance.membersOf_eq t.id, if_neg (fun heq => hid heq.symm)]
          exact hroom
  · exact (hfounding.within hk ho).2 t ht rfl
  · exact hupdate.within hw
  · rw [Tables.membersOf, hdissolution.members_eq]
    exact hw.rooms old hold

/-- A deed done alone keeps tables well formed. -/
theorem Call.Deed.wellFormed (hk : tables.Keyed) (ho : tables.Owned) (hw : tables.WellFormed)
    (h : call.Deed (Rely.alone tables now) ⟨tables, now, random⟩ s result) : s.WellFormed := by
  have horderly : (Rely.alone tables now).Orderly := Rely.alone_orderly hk
  have hinv : (Rely.alone tables now).inv ⟨tables, now, random⟩ := ⟨rfl, rfl⟩
  have howned : s.Owned := h.owned horderly (fun hinv => hinv.1 ▸ ho) hinv
  constructor
  · intro m hm
    obtain ⟨t, ht, hid, -⟩ := howned.roles m hm
    exact ⟨t, ht, hid⟩
  · exact h.invitation_team horderly hinv hw.invitations
  · exact h.rooms hk ho hw
  · intro t ht
    rcases h.team_written ht with hold | ⟨config, input, name, time, hfounding⟩ |
      ⟨input, name, before, time, hupdate⟩ | ⟨old, requester, time, count, hold, rfl, -⟩
    · exact hw.teams t hold
    · exact hfounding.wellFormed
    · exact hupdate.wellFormed (hw.teams before hupdate.before_mem.1)
    · obtain ⟨hlimit, hnamed, hslug⟩ := hw.teams old hold
      exact ⟨hlimit, hnamed, hslug⟩
  · exact h.invitation_wellFormed horderly hinv hw.offers

end

/-! ## Invitations, whatever runs together -/

/-- Every invitation is of a stored team, well formed, and has the digest of a token. Unlike all of
`Tables.WellFormed`, this is kept by deeds that others come between. -/
structure Tables.Offered (s : Tables) : Prop where
  teams : ∀ i ∈ s.invitations, ∃ t ∈ s.teams, t.id = i.teamId
  offers : ∀ i ∈ s.invitations, i.WellFormed
  tokens : ∀ i ∈ s.invitations, ∃ token, i.tokenHash = Token.hash token

/-- A sending writes the digest of the token that it draws. -/
theorem Sending.tokenHash_eq {rely : Rely} {config : Config} {team inviter : Int} {email : String}
    {role : Role} {invitee : Option User} {token : String} {now expiresAt : Instant}
    {w : World Tables} {s : Tables} {invitation : Invitation}
    (h : Sending rely config team inviter email role invitee token now expiresAt w s invitation) :
    invitation.tokenHash = Token.hash token := by
  obtain ⟨-, -, rfl, -⟩ := Tables.createInvitation_ok h.written
  rfl

/-- It is kept by all that can happen. -/
theorem Rely.offered_governs : (Rely.among Tables.Offered).Governs := by
  refine Rely.among_governs ?_ (fun _ _ h => ⟨h.1, h.2, h.3⟩) fun _ h => ⟨h.1, h.2, h.3⟩
  intro call w s result hinv hdeed
  have horderly := Rely.among_orderly Tables.Offered
  have hoffered := hinv.2
  refine ⟨hdeed.invitation_team horderly hinv hoffered.teams,
    hdeed.invitation_wellFormed horderly hinv hoffered.offers, ?_⟩
  intro i hi
  rcases hdeed.invitation_origin horderly hinv hi with
    ⟨j, hj, hoffer⟩ | ⟨_, _, _, token, _, _, -, hsending⟩
  · rw [← (Invitation.offer_eq hoffer).2.2.2.2.1]
    exact hoffered.tokens j hj
  · exact ⟨token, hsending.tokenHash_eq⟩

/-- In pools that start on an empty store, invitations are so. -/
theorem Pool.offered_fits (clock : Instant) (random : RandomSource) (events : List Event) :
    ((start clock random).run events).Fits (Rely.among Tables.Offered) := by
  have hempty : Tables.empty.Offered :=
    ⟨fun _ hi => absurd hi List.not_mem_nil, fun _ hi => absurd hi List.not_mem_nil,
      fun _ hi => absurd hi List.not_mem_nil⟩
  exact (fits_run Rely.offered_governs (fits_nil ⟨Tables.empty_keyed, hempty⟩) events).1

/-! ## Actions one after another -/

/-- The tables have their keys and their owners, and are well formed. -/
structure Tables.Proper (s : Tables) : Prop where
  keyed : s.Keyed
  owned : s.Owned
  wellFormed : s.WellFormed

theorem Tables.empty_proper : Tables.empty.Proper :=
  ⟨Tables.empty_keyed, Tables.empty_owned, Tables.empty_wellFormed⟩

/-- All of that is about rows and last ids. -/
theorem Tables.Proper.of_eq {s s' : Tables} (h : s.Proper) (hteams : s'.teams = s.teams)
    (hmembers : s'.members = s.members) (hinvitations : s'.invitations = s.invitations)
    (hteam : s'.lastTeamId = s.lastTeamId)
    (hinvitation : s'.lastInvitationId = s.lastInvitationId) : s'.Proper :=
  ⟨h.keyed.of_eq hteams hmembers hinvitations hteam hinvitation, h.owned.of_eq hteams hmembers,
    h.wellFormed.of_eq hteams hmembers hinvitations⟩

/-- A call that nothing comes between keeps it. -/
theorem Call.run_proper (call : Call) {w : World Tables} (h : w.store.Proper) :
    (call.program.run w).world.store.Proper := by
  obtain ⟨-, ⟨hsame, -⟩ | ⟨random, hdeed⟩⟩ := call.run_deed w
  · rw [hsame]
    exact h
  · have horderly : (Rely.alone w.store w.clock).Orderly := Rely.alone_orderly h.keyed
    have hinv : (Rely.alone w.store w.clock).inv ⟨w.store, w.clock, random⟩ := ⟨rfl, rfl⟩
    exact ⟨hdeed.keyed horderly hinv, hdeed.owned horderly (fun hinv => hinv.1 ▸ h.owned) hinv,
      hdeed.wellFormed h.keyed h.owned h.wellFormed⟩

theorem World.after_proper {w : World Tables} (h : w.store.Proper) (episode : Episode) :
    (w.after episode).store.Proper := by
  cases episode with
  | acts config action =>
    have hrun := (Call.act config action).run_proper h
    rwa [show (Call.act config action).program = (action.program config).map action.answer from rfl,
      Program.run_map] at hrun
  | setClock clock => exact h
  | insertUser email name => exact h.of_eq rfl rfl rfl rfl rfl
  | failSettling fail => exact h.of_eq rfl rfl rfl rfl rfl

theorem World.afterAll_proper {w : World Tables} (h : w.store.Proper) (episodes : List Episode) :
    (w.afterAll episodes).store.Proper := by
  induction episodes generalizing w with
  | nil => exact h
  | cons episode rest ih => exact ih (World.after_proper h episode)

/-- Whatever actions run one after another on an empty store, under any settings and at
any times, failing or not, the tables stay well formed. -/
theorem World.afterAll_wellFormed (clock : Instant) (random : RandomSource)
    (episodes : List Episode) :
    ((World.mk (Store.empty : Tables) clock random).afterAll episodes).store.WellFormed :=
  (World.afterAll_proper Tables.empty_proper episodes).wellFormed

end Roster
