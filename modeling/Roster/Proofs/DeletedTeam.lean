import Roster.Proofs.LateInvitation
import Roster.Proofs.Ownership
import Roster.Proofs.Sequence

/-!
# Deleted teams stay as they are

The rows of a deleted team outlive it, and several actions never look at the team. They
leave its rows alone all the same: what looks for the team does not find it, and what
goes by an invitation to it finds the invitation settled.

* `Tables.Closed` — a team is deleted and no invitation to it is pending, and
  `Dissolution.closed` — a deletion closes its team;
* `Call.Deed.sameRows` — actions that run alone leave the rows of a closed team alone,
  one table at a time, and `World.afterAll_closed` — so do any actions in order;
* `run_listMyTeams` — what a user's own listing comes to;
* `World.ShutsOut` — what actions on a closed team come to;
* `World.deleted_team_frozen` — all of it after a deletion.
-/

namespace Roster

/-- The team that an action looks for before it does anything else. -/
def Action.firstLooksFor? : Action → Option Int
  | .updateTeam input => some input.teamId
  | .deleteTeam team _ => some team
  | .getTeam team _ => some team
  | .listMembers team _ => some team
  | .updateMemberRole team _ _ _ => some team
  | .removeMember team _ _ => some team
  | .leaveTeam team _ => some team
  | .listTeamInvitations team _ _ _ => some team
  | _ => none

namespace Tables

/-- A team is deleted, and no invitation to it waits for an answer. -/
structure Closed (s : Tables) (team : Int) : Prop where
  deleted : ∃ t ∈ s.teams, t.id = team ∧ t.status = .deleted
  settled : ∀ i ∈ s.invitations, i.teamId = team → i.isPending = false

/-- The rows of a team are the same in both tables. -/
structure SameRows (s s' : Tables) (team : Int) : Prop where
  teams : ∀ t : Team, t.id = team → (t ∈ s'.teams ↔ t ∈ s.teams)
  members : ∀ m : Member, m.teamId = team → (m ∈ s'.members ↔ m ∈ s.members)
  invitations : ∀ i : Invitation, i.teamId = team → (i ∈ s'.invitations ↔ i ∈ s.invitations)

variable {s s' s'' : Tables} {team : Int}

theorem SameRows.of_eq (hteams : s'.teams = s.teams) (hmembers : s'.members = s.members)
    (hinvitations : s'.invitations = s.invitations) : s.SameRows s' team where
  teams := fun t _ => by rw [hteams]
  members := fun m _ => by rw [hmembers]
  invitations := fun i _ => by rw [hinvitations]

theorem SameRows.trans (h : s.SameRows s' team) (h' : s'.SameRows s'' team) :
    s.SameRows s'' team where
  teams := fun t ht => (h'.teams t ht).trans (h.teams t ht)
  members := fun m hm => (h'.members m hm).trans (h.members m hm)
  invitations := fun i hi => (h'.invitations i hi).trans (h.invitations i hi)

/-- What is closed stays so while its rows are the same. -/
theorem Closed.of_sameRows (h : s.Closed team) (hsame : s.SameRows s' team) : s'.Closed team where
  deleted := by
    obtain ⟨t, ht, hid, hdeleted⟩ := h.deleted
    exact ⟨t, (hsame.teams t hid).mpr ht, hid, hdeleted⟩
  settled := fun i hi hteam => h.settled i ((hsame.invitations i hteam).mp hi) hteam

/-- The only row under the id of a closed team is a deleted one. -/
theorem Closed.row_deleted (h : s.Closed team) (hk : s.Keyed) {t : Team} (ht : t ∈ s.teams)
    (hid : t.id = team) : t.status = .deleted := by
  obtain ⟨t', ht', hid', hdeleted⟩ := h.deleted
  rw [hk.team_eq ht ht' (hid.trans hid'.symm)]
  exact hdeleted

/-- A team that is found is not the closed one. -/
theorem Closed.ne_of_found (h : s.Closed team) (hk : s.Keyed) {id : Int} {t : Team}
    (hfound : s.findTeam id = some t) : id ≠ team := by
  rintro rfl
  obtain ⟨ht, hid, hactive⟩ := findTeam_some hfound
  rw [h.row_deleted hk ht hid] at hactive
  cases hactive

theorem Closed.findTeam_eq_none (h : s.Closed team) (hk : s.Keyed) : s.findTeam team = none := by
  cases hfound : s.findTeam team with
  | none => rfl
  | some t => exact absurd rfl (h.ne_of_found hk hfound)

/-- A page of the teams of a user shows active teams. -/
theorem mem_listTeamsOf {user : Int} {page : Page} {t : Team} (h : t ∈ s.listTeamsOf user page) :
    t ∈ s.teams ∧ t.status = .active := by
  have hlisted := List.mem_of_mem_drop (List.mem_of_mem_take h)
  rw [List.mem_mergeSort, List.mem_filter, Bool.and_eq_true, Team.isActive_iff] at hlisted
  exact ⟨hlisted.1, hlisted.2.1⟩

/-- A change of a role leaves the members of other teams alone. -/
theorem mem_setRole_other {of_ user : Int} {role : Role} {now : Instant} {changed m : Member}
    (h : s.setRole of_ user role now = .ok (changed, s')) (hother : m.teamId ≠ of_) :
    m ∈ s'.members ↔ m ∈ s.members := by
  obtain ⟨member, hfound, rfl, rfl⟩ := setRole_ok h
  obtain ⟨-, hteam, -⟩ := findMember_some hfound
  have hkept : ¬ m.isOf of_ user = true := fun hkey => hother (Member.isOf_iff.mp hkey).1
  constructor
  · intro hm
    obtain ⟨old, hold, heq⟩ := List.mem_map.mp hm
    split at heq
    · -- the changed row is a row of the team itself
      rw [← heq] at hother
      exact absurd hteam hother
    · exact heq ▸ hold
  · intro hm
    exact List.mem_map.mpr ⟨m, hm, if_neg hkept⟩

/-- So does a removal. -/
theorem mem_removeMember_other {of_ user : Int} {reply : Unit} {m : Member}
    (h : s.removeMember of_ user = .ok (reply, s')) (hother : m.teamId ≠ of_) :
    m ∈ s'.members ↔ m ∈ s.members := by
  obtain ⟨-, rfl⟩ := removeMember_ok h
  have hkept : m.isOf of_ user = false :=
    Bool.eq_false_iff.mpr fun hkey => hother (Member.isOf_iff.mp hkey).1
  rw [List.mem_filter, hkept]
  exact and_iff_left rfl

end Tables

/-! ## Actions that run alone -/

section

variable {rely : Rely} {w : World Tables} {s : Tables} {result : Except Failure Answer}

/-- A deletion closes its team. -/
theorem Dissolution.closed {team requester : Int} {now : Instant} {count : Nat}
    (h : Dissolution rely team requester now w s count) : s.Closed team where
  deleted := by
    obtain ⟨deleted, hdelete, -⟩ := h.written
    obtain ⟨⟨before, hfound⟩, -⟩ := Tables.deleteTeam_ok hdelete
    obtain ⟨hmem, hid, -⟩ := Tables.findTeam_some hfound
    rw [h.teams_eq]
    exact ⟨before.markDeleted now, List.mem_map.mpr ⟨before, hmem, if_pos hid⟩, hid, rfl⟩
  settled := fun _ hi hteam => h.settles hi hteam

variable {tables : Tables} {now : Instant} {random : RandomSource} {config : Config}
  {action : Action} {team : Int}

/-- A team that was seen alone is not the closed one. -/
theorem Rely.Seen.ne_closed (hk : tables.Keyed) (hclosed : tables.Closed team) {id : Int}
    (h : (Rely.alone tables now).Seen w fun v => ∃ found, v.store.findTeam id = some found) :
    id ≠ team := by
  obtain ⟨_, found, hfound⟩ := h.alone
  exact hclosed.ne_of_found hk hfound

/-- The row of a closed team stays as it is: it is final. -/
theorem Call.Deed.closed_teams (hk : tables.Keyed) (hclosed : tables.Closed team)
    (h : (Call.act config action).Deed (Rely.alone tables now) ⟨tables, now, random⟩ s result)
    {t : Team} (hid : t.id = team) : t ∈ s.teams ↔ t ∈ tables.teams := by
  have horderly : (Rely.alone tables now).Orderly := Rely.alone_orderly hk
  have hk' : s.Keyed := h.keyed horderly ⟨rfl, rfl⟩
  have hevolves : tables.Evolves s := h.evolves horderly ⟨rfl, rfl⟩
  have hkept : ∀ u ∈ tables.teams, u.id = team → u ∈ s.teams := by
    intro u hu huid
    obtain ⟨u', hu', -, -, -, hfinal⟩ := hevolves.teams u hu
    exact hfinal (hclosed.row_deleted hk hu huid) ▸ hu'
  constructor
  · intro ht
    obtain ⟨d, hd, hdid, -⟩ := hclosed.deleted
    rw [hk'.team_eq ht (hkept d hd hdid) (hid.trans hdid.symm)]
    exact hd
  · exact fun ht => hkept t ht hid

/-- Members only change in teams that are founded or found. -/
theorem Call.Deed.closed_members (hk : tables.Keyed) (hclosed : tables.Closed team)
    (h : (Call.act config action).Deed (Rely.alone tables now) ⟨tables, now, random⟩ s result)
    {m : Member} (hteam : m.teamId = team) : m ∈ s.members ↔ m ∈ tables.members := by
  -- who comes into another team is not among the members of this one
  have hjoined : ∀ {member : Member}, member.teamId ≠ team →
      s.members.Perm (member :: tables.members) → (m ∈ s.members ↔ m ∈ tables.members) := by
    intro member hother hperm
    rw [hperm.mem_iff, List.mem_cons]
    exact or_iff_right fun heq => hother (heq ▸ hteam)
  cases h with
  | @founds _ _ _ _ _ _ founded h =>
    obtain ⟨member, hmember, -, -, hperm⟩ := h.members_perm
    refine hjoined ?_ hperm
    obtain ⟨d, hd, hdid, -⟩ := hclosed.deleted
    have hle := hk.teams_le d hd
    have hfresh : founded.id = tables.lastTeamId + 1 := h.teams_eq.1
    omega
  | updates h => exact h.frame.1 ▸ Iff.rfl
  | dissolves h => exact h.members_eq ▸ Iff.rfl
  | changesRole hfound h =>
    exact Tables.mem_setRole_other h.written fun heq =>
      hfound.ne_closed hk hclosed (heq.symm.trans hteam)
  | removes hfound h =>
    exact Tables.mem_removeMember_other h.written fun heq =>
      hfound.ne_closed hk hclosed (heq.symm.trans hteam)
  | leaves hfound h =>
    exact Tables.mem_removeMember_other h.written fun heq =>
      hfound.ne_closed hk hclosed (heq.symm.trans hteam)
  | sends h _ => exact h.frame.2 ▸ Iff.rfl
  | accepts h =>
    obtain ⟨hmember, -, -, -, hperm⟩ := h.members_perm
    refine hjoined ?_ hperm
    obtain ⟨found, _, _, hfound, -⟩ := h.written
    rw [hmember]
    exact hclosed.ne_of_found hk hfound
  | lapses h => exact h.frame.2 ▸ Iff.rfl
  | rejects h => exact h.frame.2 ▸ Iff.rfl
  | revokes h => exact h.frame.2 ▸ Iff.rfl
  | sweeps h => exact h.frame.2 ▸ Iff.rfl

/-- Settled invitations are final, and none is sent to a team that is not found. -/
theorem Call.Deed.closed_invitations (hk : tables.Keyed) (hclosed : tables.Closed team)
    (h : (Call.act config action).Deed (Rely.alone tables now) ⟨tables, now, random⟩ s result)
    {i : Invitation} (hteam : i.teamId = team) : i ∈ s.invitations ↔ i ∈ tables.invitations := by
  have horderly : (Rely.alone tables now).Orderly := Rely.alone_orderly hk
  have hk' : s.Keyed := h.keyed horderly ⟨rfl, rfl⟩
  have hevolves : tables.Evolves s := h.evolves horderly ⟨rfl, rfl⟩
  constructor
  · intro hi
    by_cases hold : ∃ j ∈ tables.invitations, j.id = i.id
    · obtain ⟨j, hj, hjid⟩ := hold
      obtain ⟨j', hj', hoffer, hfinal⟩ := hevolves.invitations j hj
      obtain ⟨hid', hteam', -⟩ := Invitation.offer_eq hoffer
      obtain rfl : j' = i := hk'.invitation_eq hj' hi (hid'.trans hjid)
      exact hfinal (hclosed.settled j hj (hteam'.symm.trans hteam)) ▸ hj
    · have hnew : ∀ j ∈ tables.invitations, j.id ≠ i.id := fun j hj hjid => hold ⟨j, hj, hjid⟩
      obtain ⟨_, _, _, _, _, _, -, hsending⟩ := h.invitation_issued hi hnew
      obtain ⟨found, hfound, -⟩ := hsending.room
      exact absurd hteam (Rely.Seen.ne_closed hk hclosed (hfound.imp fun v hv => ⟨found, hv⟩))
  · intro hi
    obtain ⟨i', hi', -, hfinal⟩ := hevolves.invitations i hi
    exact hfinal (hclosed.settled i hi hteam) ▸ hi'

/-- An action that runs alone leaves the rows of a closed team alone. -/
theorem Call.Deed.sameRows (hk : tables.Keyed) (hclosed : tables.Closed team)
    (h : (Call.act config action).Deed (Rely.alone tables now) ⟨tables, now, random⟩ s result) :
    tables.SameRows s team where
  teams := fun _ hid => h.closed_teams hk hclosed hid
  members := fun _ hteam => h.closed_members hk hclosed hteam
  invitations := fun _ hteam => h.closed_invitations hk hclosed hteam

end

namespace World

variable {w : World Tables} {team : Int}

theorem after_sameRows (hk : w.store.Keyed) (hclosed : w.store.Closed team) (episode : Episode) :
    w.store.SameRows (w.after episode).store team := by
  cases episode with
  | acts config action =>
    rcases (action.run_deed config w).2 with hsame | ⟨random, result, hdeed⟩
    · exact .of_eq (congrArg Tables.teams hsame) (congrArg Tables.members hsame)
        (congrArg Tables.invitations hsame)
    · exact hdeed.sameRows hk hclosed
  | setClock clock => exact .of_eq rfl rfl rfl
  | insertUser email name => exact .of_eq rfl rfl rfl
  | failSettling fail => exact .of_eq rfl rfl rfl

/-- Any actions in order leave the rows of a closed team alone, and the team stays
closed. -/
theorem afterAll_closed (h : w.store.Sound) (hclosed : w.store.Closed team)
    (episodes : List Episode) :
    w.store.SameRows (w.afterAll episodes).store team ∧
      (w.afterAll episodes).store.Closed team := by
  induction episodes generalizing w with
  | nil => exact ⟨.of_eq rfl rfl rfl, hclosed⟩
  | cons episode rest ih =>
    have hfirst := after_sameRows h.1 hclosed episode
    obtain ⟨hrest, hlast⟩ := ih (after_sound h episode) (hclosed.of_sameRows hfirst)
    exact ⟨hfirst.trans hrest, hlast⟩

end World

/-! ## What callers come to -/

namespace Program

variable {α : Type} {w : World Tables} {team : Int}

/-- What looks for a team that is missing fails with that. -/
theorem run_requireTeam_none (h : w.store.findTeam team = none) (f : Team → Program α) :
    ((ofWork (requireTeam team) >>= f).run w).result = .error (.error (.teamNotFound team)) := by
  have hrun : (requireTeam team).run w.clock w.store =
      ⟨.error (.teamNotFound team), [], w.store⟩ := by
    simp [requireTeam, Work.run_bind, Tables.perform_eq, Tables.perform, Tables.reading, h,
      Work.found]
  rw [run_bind, run_ofWork, hrun]
  rfl

/-- On the given tables the program is refused, whatever it has seen of them. -/
abbrev Refused (tables : Tables) (now : Instant) (seen : List (World Tables → Prop))
    (program : Program α) : Prop :=
  program.Knowing (Rely.alone tables now) (fun _ _ _ => False)
    (fun _ result => ∃ e, result = .error (.error e)) seen

variable {tables : Tables} {now : Instant} {seen : List (World Tables → Prop)}

theorem refused_refuse (e : TeamError) : (refuse e : Program α).Refused tables now seen :=
  knowing_refuse fun _ _ _ => ⟨e, rfl⟩

/-- What is refused whatever it sees comes to a failure. -/
theorem Refused.run {program : Program α} (h : program.Refused w.store w.clock []) :
    ∃ e, (program.run w).result = .error (.error e) := by
  obtain ⟨-, ⟨-, hquiet⟩ | ⟨_, -, -, -, -, hfalse⟩⟩ := (h.abides ⟨rfl, rfl⟩).run ⟨rfl, rfl⟩
  · exact hquiet
  · exact hfalse.elim

/-- Resolving the token of an invitation that is settled is refused. -/
theorem refused_resolveToken {token : Secret} {email : String} {i : Invitation}
    (hk : tables.Keyed) (hi : i ∈ tables.invitations) (hsettled : i.isPending = false)
    (htoken : Token.hash token.plain = i.tokenHash) (f : Invitation → Program α) :
    (ofWork (resolveToken token email) >>= f).Refused tables now [] := by
  unfold resolveToken
  simp only [ofWork_bind, bind_assoc, ofWork_pure, pure_bind]
  refine knowing_read (fun _ => rfl) ?_
  intro found
  refine knowing_found (fun _ => refused_refuse _) ?_
  rintro invitation rfl
  refine knowing_require (fun _ => refused_refuse _) ?_
  intro _
  refine knowing_require (fun _ => refused_refuse _) ?_
  -- the invitation that was found is the settled one
  intro hpending w hinv hseen
  obtain ⟨_, hfound⟩ := (hseen _ List.mem_cons_self).alone
  obtain ⟨hmem, hhash⟩ := Tables.findInvitationByToken_some hfound
  rw [hk.invitation_eq_of_token hmem hi (hhash.trans htoken), hsettled] at hpending
  cases hpending

/-- An invitation to a team that is missing is not sent. -/
theorem refused_sendInvitation (config : Config) (inviter : Int) (email : String) (role : Role)
    (hnone : tables.findTeam team = none) :
    (sendInvitation config team inviter email role).Refused tables now [] := by
  unfold sendInvitation checkInvitee requireTeam
  simp only [liftM_work, bind_assoc, ofWork_bind]
  apply knowing_permission (fun _ _ => refused_refuse _)
  intro member _
  refine knowing_require (fun _ => refused_refuse _) ?_
  intro _
  refine knowing_require (fun _ => refused_refuse _) ?_
  intro _
  refine knowing_read (fun _ => rfl) ?_
  intro found
  refine knowing_found (fun _ => refused_refuse _) ?_
  rintro row rfl w hinv hseen
  obtain ⟨_, hfound⟩ := (hseen _ List.mem_cons_self).alone
  rw [hnone] at hfound
  cases hfound

/-- An invitation that is settled is not withdrawn. -/
theorem refused_revokeInvitation {i : Invitation} (requester : Int) (hk : tables.Keyed)
    (hi : i ∈ tables.invitations) (hsettled : i.isPending = false) :
    (revokeInvitation i.id requester).Refused tables now [] := by
  unfold revokeInvitation revokePending
  simp only [liftM_work, ofWork_bind, bind_assoc]
  refine knowing_read (fun _ => rfl) ?_
  intro found
  refine knowing_found (fun _ => refused_refuse _) ?_
  rintro invitation rfl
  apply knowing_permission (fun _ _ => refused_refuse _)
  intro member _
  refine knowing_require (fun _ => refused_refuse _) ?_
  intro hpending w hinv hseen
  obtain ⟨_, hfound⟩ := (hseen _ (List.mem_cons_of_mem _ List.mem_cons_self)).alone
  obtain ⟨hmem, hid⟩ := Tables.findInvitation_some hfound
  rw [hk.invitation_eq hmem hi hid, hsettled] at hpending
  cases hpending

end Program

/-- The entry of a team in a user's own listing, if the user is a member. -/
def Tables.entryOf (s : Tables) (user : Int) (team : Team) : Option MyTeam :=
  (s.findMember team.id user).map fun member => ⟨team, member.role⟩

/-- The roles of a user in teams are those of the memberships that there are. -/
theorem run_withRoles (user : Int) (teams : List Team) (time : Instant) (s : Tables) :
    (withRoles user teams).run time s = ⟨.ok (teams.filterMap (s.entryOf user)), [], s⟩ := by
  induction teams with
  | nil => rfl
  | cons team rest ih =>
    simp only [withRoles, Work.run_bind, Work.run_perform, Tables.perform_eq, Tables.perform,
      Tables.reading, Outcome.andThen_ok, ih, Work.run_pure, List.append_nil]
    cases hfound : s.findMember team.id user <;> simp [Tables.entryOf, hfound]

/-- A user's own listing is of the entries of a page of teams. -/
theorem run_listMyTeams (user : Int) (page : Page) (w : World Tables) :
    (listMyTeams user page).run w =
      ⟨.ok ((w.store.listTeamsOf user page).filterMap (w.store.entryOf user)), [], w⟩ := by
  simp [listMyTeams, Program.run_bind, World.adopt, Failure.ofResult, Tables.perform_eq,
    Tables.perform, Tables.reading, run_withRoles]

/-- Whatever callers ask about a team, it is not there for them. -/
structure World.ShutsOut (w : World Tables) (team : Int) : Prop where
  missing : ∀ config (action : Action), action.firstLooksFor? = some team →
    ((action.program config).run w).result = .error (.error (.teamNotFound team))
  sending : ∀ config inviter email role, ∃ e,
    (((Action.sendInvitation team inviter email role).program config).run w).result =
      .error (.error e)
  accepting : ∀ i ∈ w.store.invitations, i.teamId = team →
    ∀ config token user email, Token.hash token.plain = i.tokenHash → ∃ e,
      (((Action.acceptInvitation token user email).program config).run w).result =
        .error (.error e)
  rejecting : ∀ i ∈ w.store.invitations, i.teamId = team →
    ∀ config token email, Token.hash token.plain = i.tokenHash → ∃ e,
      (((Action.rejectInvitation token email).program config).run w).result = .error (.error e)
  revoking : ∀ i ∈ w.store.invitations, i.teamId = team → ∀ config requester, ∃ e,
    (((Action.revokeInvitation i.id requester).program config).run w).result = .error (.error e)
  listing : ∀ config user page, ∃ listed,
    (((Action.listMyTeams user page).program config).run w).result = .ok listed ∧
      ∀ entry ∈ listed, entry.team.id ≠ team

namespace World

variable {w : World Tables} {team : Int}

/-- Actions that look for a team first fail when it is missing. -/
theorem missing_of_findTeam (hnone : w.store.findTeam team = none) (config : Config)
    {action : Action} (h : action.firstLooksFor? = some team) :
    ((action.program config).run w).result = .error (.error (.teamNotFound team)) := by
  cases action with
  | updateTeam input =>
    cases h
    show ((updateTeam input).run w).result = _
    rw [UpdateTeam.updateTeam_eq]
    exact Program.run_requireTeam_none hnone _
  | deleteTeam | getTeam | listMembers | updateMemberRole | removeMember | leaveTeam
  | listTeamInvitations =>
    cases h
    exact Program.run_requireTeam_none hnone _
  | _ => cases h

/-- A closed team is in no listing of a user's teams. -/
theorem closed_not_listed (hk : w.store.Keyed) (hclosed : w.store.Closed team) (config : Config)
    (user : Int) (page : Page) : ∃ listed,
    (((Action.listMyTeams user page).program config).run w).result = .ok listed ∧
      ∀ entry ∈ listed, entry.team.id ≠ team := by
  refine ⟨(w.store.listTeamsOf user page).filterMap (w.store.entryOf user), ?_, ?_⟩
  · exact congrArg Run.result (run_listMyTeams user page w)
  · intro entry hentry hid
    obtain ⟨t, ht, hrole⟩ := List.mem_filterMap.mp hentry
    obtain ⟨member, -, rfl⟩ := Option.map_eq_some_iff.mp hrole
    obtain ⟨hmem, hactive⟩ := Tables.mem_listTeamsOf ht
    rw [hclosed.row_deleted hk hmem hid] at hactive
    cases hactive

/-- A closed team is not there for any caller. -/
theorem shutsOut_of_closed (hk : w.store.Keyed) (hclosed : w.store.Closed team) :
    w.ShutsOut team where
  missing := fun config _ h => missing_of_findTeam (hclosed.findTeam_eq_none hk) config h
  sending := fun config inviter email role => Program.Refused.run
    (Program.refused_sendInvitation config inviter email role (hclosed.findTeam_eq_none hk))
  accepting := fun i hi hteam _ _ _ _ htoken => Program.Refused.run
    (Program.refused_resolveToken hk hi (hclosed.settled i hi hteam) htoken _)
  rejecting := fun i hi hteam _ _ _ htoken => Program.Refused.run
    (Program.refused_resolveToken hk hi (hclosed.settled i hi hteam) htoken _)
  revoking := fun i hi hteam _ requester => Program.Refused.run
    (Program.refused_revokeInvitation requester hk hi (hclosed.settled i hi hteam))
  listing := fun config user page => closed_not_listed hk hclosed config user page

/-- A deletion that succeeds leaves its team closed. -/
theorem closed_of_deletion {config : Config} {requester : Int} {count : Nat}
    (h : (((Action.deleteTeam team requester).program config).run w).result = .ok count) :
    (((Action.deleteTeam team requester).program config).run w).world.store.Closed team := by
  have hprogram : (Call.act config (.deleteTeam team requester)).program =
      ((Action.deleteTeam team requester).program config).map
        (Action.deleteTeam team requester).answer := rfl
  have hrun := (Call.act config (.deleteTeam team requester)).run_deed w
  rw [hprogram, Program.run_map, h] at hrun
  obtain ⟨-, ⟨-, hquiet⟩ | ⟨random, hdeed⟩⟩ := hrun
  · cases hquiet.onlyReads_of_ok
  · cases hdeed with
    | dissolves hdissolution => exact hdissolution.closed

/-- Whatever has happened before, when a team is deleted with success its rows never
change again, whoever acts after that, one after another and at whatever times. No
invitation to it is pending then, and whoever asks about it is refused. -/
theorem deleted_team_frozen (clock : Instant) (random : RandomSource) (history : List Event)
    (config : Config) (team requester : Int) (count : Nat) (later : List Episode) :
    let w := ((Pool.start clock random).run history).world
    let deletion := ((Action.deleteTeam team requester).program config).run w
    let v := deletion.world.afterAll later
    deletion.result = .ok count →
      deletion.world.store.SameRows v.store team ∧ v.store.Closed team ∧ v.ShutsOut team := by
  intro w deletion v hdeleted
  have hsound : w.store.Sound := (Pool.fits_start clock random history).inv
  have hsound' : deletion.world.store.Sound :=
    after_sound hsound (.acts config (.deleteTeam team requester))
  obtain ⟨hsame, hclosed⟩ := afterAll_closed hsound' (closed_of_deletion hdeleted) later
  exact ⟨hsame, hclosed, shutsOut_of_closed (afterAll_sound hsound' later).1 hclosed⟩

/-- A user and its sender are about to settle an invitation. The team is deleted before
them, and founded anew. -/
theorem deleted_team_frozen_of_rivals :
    let w := ((Pool.start .epoch .sequence).run Pool.rivals).world
    let deletion := ((Action.deleteTeam 1 7).program .default).run w
    let v := deletion.world.afterAll
      [.acts .default (.acceptInvitation ⟨(RandomSource.sequence.token 32).1⟩ 1 "ann@example.org"),
        .acts .default (.createTeam
          { ownerId := 7
            name := "Core"
            description := none
            visibility := .everyone
            memberLimit := none }),
        .acts .default (.leaveTeam 1 1)]
    deletion.result = .ok 1 ∧
      deletion.world.store.SameRows v.store 1 ∧ v.store.Closed 1 ∧ v.ShutsOut 1 := by
  intro w deletion v
  have hdeleted : (match deletion.result with
      | .ok count => some count
      | .error _ => none) = some 1 := by
    decide +kernel
  have hok : deletion.result = .ok 1 := by
    generalize deletion.result = result at hdeleted
    cases result with
    | ok count => exact congrArg Except.ok (Option.some.inj hdeleted)
    | error failure => cases hdeleted
  exact ⟨hok, deleted_team_frozen .epoch .sequence Pool.rivals .default 1 7 1 _ hok⟩

end World

end Roster
