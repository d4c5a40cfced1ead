import Roster.Proofs.Deed.Lineage

/-!
# Which deed changes which rows

Read the other way round: a row that is different after a deed tells what the
deed was.

* frame lemmas — the tables that each deed leaves alone;
* `Call.MemberDeed`, `Call.InvitationDeed` — the deeds that change members and
  invitations, with `Call.Deed.members` and `Call.Deed.invitations`;
* `Call.Deed.team_changed`, `Call.Deed.team_founded`, `Call.Deed.member_joined`,
  `Call.Deed.member_left`, `Call.Deed.role_changed`,
  `Call.Deed.invitation_issued`, `Call.Deed.invitation_settled` — the deed behind
  a row.
-/

namespace Roster

/-- Whom a call removes: the team, the member, and who asks for it. -/
def Call.removal? : Call → Option (Int × Int × Int)
  | .act _ (.removeMember team target requester) => some (team, target, requester)
  | .act _ (.leaveTeam team user) => some (team, user, user)
  | .membership (.remove team target requester) => some (team, target, requester)
  | .membership (.leave team user) => some (team, user, user)
  | _ => none

/-- Whose role a call changes: the team, the member, who asks for it, and the
new role. -/
def Call.roleChange? : Call → Option (Int × Int × Int × Role)
  | .act _ (.updateMemberRole team target requester role) => some (team, target, requester, role)
  | .membership (.changeRole team target requester role) => some (team, target, requester, role)
  | _ => none

section

variable {rely : Rely} {call : Call} {w : World Tables} {s : Tables}
  {result : Except Failure Answer}

/-! ## Frames -/

theorem Founding.invitations_eq {config : Config} {input : CreateTeam} {name : String}
    {now : Instant} {team : Team} (h : Founding rely config input name now w s team) :
    s.invitations = w.store.invitations := by
  obtain ⟨founded, member, hcreate, hadd⟩ := h.written
  obtain ⟨-, -, -, heq⟩ := Tables.addMember_ok hadd
  obtain ⟨-, -, rfl⟩ := Tables.createTeam_ok hcreate
  rw [heq]

theorem Update.frame {input : UpdateTeam} {name : Option String} {before : Team} {now : Instant}
    {team : Team} (h : Update rely input name before now w s team) :
    s.members = w.store.members ∧ s.invitations = w.store.invitations := by
  obtain ⟨-, -, -, rfl⟩ := Tables.updateTeam_ok h.written
  exact ⟨rfl, rfl⟩

theorem Dissolution.members_eq {team requester : Int} {now : Instant} {count : Nat}
    (h : Dissolution rely team requester now w s count) : s.members = w.store.members := by
  obtain ⟨deleted, hdelete, hsettle⟩ := h.written
  obtain ⟨-, rfl⟩ := Tables.deleteTeam_ok hdelete
  obtain ⟨-, rfl⟩ := Tables.settleAll_eq hsettle
  rfl

theorem RoleChange.frame {team target requester : Int} {role : Role} {now : Instant}
    {changed : Member} (h : RoleChange rely team target requester role now w s changed) :
    s.teams = w.store.teams ∧ s.invitations = w.store.invitations := by
  obtain ⟨_, -, -, rfl⟩ := Tables.setRole_ok h.written
  exact ⟨rfl, rfl⟩

theorem Removal.frame {team target requester : Int}
    (h : Removal rely team target requester w s) :
    s.teams = w.store.teams ∧ s.invitations = w.store.invitations := by
  obtain ⟨-, rfl⟩ := Tables.removeMember_ok h.written
  exact ⟨rfl, rfl⟩

theorem Sending.frame {config : Config} {team inviter : Int} {email : String} {role : Role}
    {invitee : Option User} {token : String} {now expiresAt : Instant} {invitation : Invitation}
    (h : Sending rely config team inviter email role invitee token now expiresAt w s invitation) :
    s.teams = w.store.teams ∧ s.members = w.store.members := by
  obtain ⟨-, -, -, rfl⟩ := Tables.createInvitation_ok h.written
  exact ⟨rfl, rfl⟩

theorem Tables.settleInvitation_frame {s s' : Tables} {id : Int} {status : InvitationStatus}
    {now : Instant} {settled : Invitation}
    (h : s.settleInvitation id status now = .ok (some settled, s')) :
    s'.teams = s.teams ∧ s'.members = s.members := by
  obtain ⟨_, -, -, -, rfl⟩ := settleInvitation_ok h
  exact ⟨rfl, rfl⟩

theorem Acceptance.teams_eq {token : Secret} {user : Int} {email : String}
    {invitation : Invitation} {member : Member}
    (h : Acceptance rely token user email invitation w s member) :
    s.teams = w.store.teams := by
  obtain ⟨team, joined, accepted, -, -, hadd, hsettle⟩ := h.written
  obtain ⟨-, -, -, heq⟩ := Tables.addMember_ok hadd
  rw [(Tables.settleInvitation_frame hsettle).1, heq]

theorem Lapse.frame {token : Secret} {email : String} {invitation : Invitation}
    (h : Lapse rely token email invitation w s) :
    s.teams = w.store.teams ∧ s.members = w.store.members := by
  obtain ⟨now, lapsed, hsettle⟩ := h.written
  exact Tables.settleInvitation_frame hsettle

theorem Rejection.frame {token : Secret} {email : String} {invitation rejected : Invitation}
    (h : Rejection rely token email invitation w s rejected) :
    s.teams = w.store.teams ∧ s.members = w.store.members := by
  obtain ⟨now, hsettle⟩ := h.written
  exact Tables.settleInvitation_frame hsettle

theorem Revocation.frame {id requester : Int} {invitation revoked : Invitation}
    (h : Revocation rely id requester invitation w s revoked) :
    s.teams = w.store.teams ∧ s.members = w.store.members := by
  obtain ⟨now, hsettle⟩ := h.written
  exact Tables.settleInvitation_frame hsettle

theorem Sweep.frame {team : Option Int} {now : Instant} {count : Nat}
    (h : Sweep rely team now w s count) :
    s.teams = w.store.teams ∧ s.members = w.store.members := by
  obtain ⟨-, rfl⟩ := Tables.settleAll_eq h.written
  exact ⟨rfl, rfl⟩

/-! ## Teams -/

/-- A founding stores the team under the next id. -/
theorem Founding.teams_eq {config : Config} {input : CreateTeam} {name : String}
    {now : Instant} {team : Team} (h : Founding rely config input name now w s team) :
    team.id = w.store.lastTeamId + 1 ∧ team.ownerId = input.ownerId ∧
      s.teams = w.store.teams ++ [team] := by
  obtain ⟨founded, member, hcreate, hadd⟩ := h.written
  obtain ⟨-, -, -, heq⟩ := Tables.addMember_ok hadd
  obtain ⟨-, rfl, rfl⟩ := Tables.createTeam_ok hcreate
  exact ⟨rfl, rfl, congrArg Tables.teams heq⟩

/-- A team only changes by an update of it or by its deletion. -/
theorem Call.Deed.team_changed (h : call.Deed rely w s result) {team : Team}
    (hteam : team ∈ w.store.teams) (hchanged : team ∉ s.teams) :
    (∃ config input name before now after, call = .act config (.updateTeam input) ∧
      before.id = team.id ∧ Update rely input name before now w s after) ∨
    ∃ config requester now count, call = .act config (.deleteTeam team.id requester) ∧
      Dissolution rely team.id requester now w s count := by
  cases h with
  | founds h =>
    obtain ⟨-, -, heq⟩ := h.teams_eq
    rw [heq] at hchanged
    exact absurd (List.mem_append_left _ hteam) hchanged
  | @updates config input name before now _ _ _ h =>
    refine .inl ⟨config, input, name, before, now, _, rfl, ?_, h⟩
    obtain ⟨-, -, -, rfl⟩ := Tables.updateTeam_ok h.written
    -- a row under another id is written back as it was
    by_contra hother
    have hne : team.id ≠ (input.revise name before now).id := by
      intro hid
      rw [UpdateTeam.revise_id] at hid
      exact hother hid.symm
    exact hchanged (List.mem_map.mpr ⟨team, hteam, if_neg hne⟩)
  | @dissolves config id requester now _ _ count h =>
    have hid : team.id = id := by
      obtain ⟨deleted, hdelete, hsettle⟩ := h.written
      obtain ⟨-, rfl⟩ := Tables.deleteTeam_ok hdelete
      obtain ⟨-, rfl⟩ := Tables.settleAll_eq hsettle
      by_contra hother
      exact hchanged (List.mem_map.mpr ⟨team, hteam, if_neg hother⟩)
    subst hid
    exact .inr ⟨config, requester, now, count, rfl, h⟩
  | changesRole _ h => exact absurd (h.frame.1 ▸ hteam) hchanged
  | removes _ h => exact absurd (h.frame.1 ▸ hteam) hchanged
  | leaves _ h => exact absurd (h.frame.1 ▸ hteam) hchanged
  | sends h _ => exact absurd (h.frame.1 ▸ hteam) hchanged
  | accepts h => exact absurd (h.teams_eq ▸ hteam) hchanged
  | lapses h => exact absurd (h.frame.1 ▸ hteam) hchanged
  | rejects h => exact absurd (h.frame.1 ▸ hteam) hchanged
  | revokes h => exact absurd (h.frame.1 ▸ hteam) hchanged
  | sweeps h => exact absurd (h.frame.1 ▸ hteam) hchanged
  | changesRoleDirectly h => exact absurd (h.frame.1 ▸ hteam) hchanged
  | removesDirectly h => exact absurd (h.frame.1 ▸ hteam) hchanged
  | leavesDirectly h => exact absurd (h.frame.1 ▸ hteam) hchanged

/-- The deletion of a team marks its row. -/
theorem Dissolution.teams_eq {team requester : Int} {now : Instant} {count : Nat}
    (h : Dissolution rely team requester now w s count) :
    s.teams = w.store.teams.map fun t => if t.id = team then t.markDeleted now else t := by
  obtain ⟨deleted, hdelete, hsettle⟩ := h.written
  obtain ⟨-, rfl⟩ := Tables.deleteTeam_ok hdelete
  obtain ⟨-, rfl⟩ := Tables.settleAll_eq hsettle
  rfl

/-- After a deed every team is as it was, or the deed has written it. -/
theorem Call.Deed.team_written (h : call.Deed rely w s result) {team : Team}
    (hteam : team ∈ s.teams) :
    team ∈ w.store.teams ∨
      (∃ config input name now, Founding rely config input name now w s team) ∨
      (∃ input name before now, Update rely input name before now w s team) ∨
      ∃ old requester now count, old ∈ w.store.teams ∧ team = old.markDeleted now ∧
        Dissolution rely old.id requester now w s count := by
  cases h with
  | @founds config input name now _ _ _ h =>
    obtain ⟨-, -, heq⟩ := h.teams_eq
    rw [heq] at hteam
    rcases List.mem_append.mp hteam with hold | hnew
    · exact .inl hold
    · obtain rfl := List.mem_singleton.mp hnew
      exact .inr (.inl ⟨config, input, name, now, h⟩)
  | @updates config input name before now _ _ written h =>
    have hrow : team = written ∨ team ∈ w.store.teams := by
      obtain ⟨-, -, rfl, rfl⟩ := Tables.updateTeam_ok h.written
      obtain ⟨t, ht, rfl⟩ := List.mem_map.mp hteam
      by_cases hid : t.id = (input.revise name before now).id
      · exact .inl (if_pos hid)
      · exact .inr (by rwa [if_neg hid])
    rcases hrow with rfl | hold
    · exact .inr (.inr (.inl ⟨input, name, before, now, h⟩))
    · exact .inl hold
  | @dissolves config id requester now _ _ count h =>
    rw [h.teams_eq] at hteam
    obtain ⟨t, ht, rfl⟩ := List.mem_map.mp hteam
    by_cases hid : t.id = id
    · subst hid
      rw [if_pos rfl]
      exact .inr (.inr (.inr ⟨t, requester, now, count, ht, rfl, h⟩))
    · rw [if_neg hid]
      exact .inl ht
  | changesRole _ h => exact .inl (h.frame.1 ▸ hteam)
  | removes _ h => exact .inl (h.frame.1 ▸ hteam)
  | leaves _ h => exact .inl (h.frame.1 ▸ hteam)
  | sends h _ => exact .inl (h.frame.1 ▸ hteam)
  | accepts h => exact .inl (h.teams_eq ▸ hteam)
  | lapses h => exact .inl (h.frame.1 ▸ hteam)
  | rejects h => exact .inl (h.frame.1 ▸ hteam)
  | revokes h => exact .inl (h.frame.1 ▸ hteam)
  | sweeps h => exact .inl (h.frame.1 ▸ hteam)
  | changesRoleDirectly h => exact .inl (h.frame.1 ▸ hteam)
  | removesDirectly h => exact .inl (h.frame.1 ▸ hteam)
  | leavesDirectly h => exact .inl (h.frame.1 ▸ hteam)

/-- New teams are only founded. -/
theorem Call.Deed.team_founded (h : call.Deed rely w s result) {team : Team}
    (hteam : team ∈ s.teams) (hnew : ∀ t ∈ w.store.teams, t.id ≠ team.id) :
    ∃ config input name now, call = .act config (.createTeam input) ∧
      Founding rely config input name now w s team := by
  have hno : (∃ t ∈ w.store.teams, t.id = team.id) → False := by
    rintro ⟨t, ht, hid⟩
    exact hnew t ht hid
  have hkept : s.teams = w.store.teams → False := by
    intro heq
    exact hno ⟨team, heq ▸ hteam, rfl⟩
  cases h with
  | @founds config input name now _ _ founded h =>
    obtain ⟨-, -, heq⟩ := h.teams_eq
    rw [heq] at hteam
    rcases List.mem_append.mp hteam with hold | hlast
    · exact (hno ⟨team, hold, rfl⟩).elim
    · obtain rfl := List.mem_singleton.mp hlast
      exact ⟨config, input, name, now, rfl, h⟩
  | updates h =>
    -- what is written back has the id of the row that it replaces
    obtain ⟨-, -, -, rfl⟩ := Tables.updateTeam_ok h.written
    obtain ⟨t, ht, rfl⟩ := List.mem_map.mp hteam
    refine (hno ⟨t, ht, ?_⟩).elim
    split
    · rename_i hid
      exact hid
    · rfl
  | dissolves h =>
    obtain ⟨deleted, hdelete, hsettle⟩ := h.written
    obtain ⟨-, rfl⟩ := Tables.deleteTeam_ok hdelete
    obtain ⟨-, rfl⟩ := Tables.settleAll_eq hsettle
    obtain ⟨t, ht, rfl⟩ := List.mem_map.mp hteam
    refine (hno ⟨t, ht, ?_⟩).elim
    split <;> rfl
  | changesRole _ h => exact (hkept h.frame.1).elim
  | removes _ h => exact (hkept h.frame.1).elim
  | leaves _ h => exact (hkept h.frame.1).elim
  | sends h _ => exact (hkept h.frame.1).elim
  | accepts h => exact (hkept h.teams_eq).elim
  | lapses h => exact (hkept h.frame.1).elim
  | rejects h => exact (hkept h.frame.1).elim
  | revokes h => exact (hkept h.frame.1).elim
  | sweeps h => exact (hkept h.frame.1).elim
  | changesRoleDirectly h => exact (hkept h.frame.1).elim
  | removesDirectly h => exact (hkept h.frame.1).elim
  | leavesDirectly h => exact (hkept h.frame.1).elim

/-! ## Members -/

variable (rely) in
/-- The deeds that change members. -/
inductive Call.MemberDeed : Call → World Tables → Tables → Prop
  | founds {config input name now w s team} : Founding rely config input name now w s team →
    MemberDeed (.act config (.createTeam input)) w s
  | changesRole {call team target requester role now w s changed} :
    Call.roleChange? call = some (team, target, requester, role) →
    RoleChange rely team target requester role now w s changed → MemberDeed call w s
  | removes {call team target requester w s} :
    Call.removal? call = some (team, target, requester) →
    Removal rely team target requester w s → MemberDeed call w s
  | accepts {config token user email invitation w s member} :
    Acceptance rely token user email invitation w s member →
    MemberDeed (.act config (.acceptInvitation token user email)) w s

theorem Call.Deed.members (h : call.Deed rely w s result) :
    s.members = w.store.members ∨ call.MemberDeed rely w s := by
  cases h with
  | founds h => exact .inr (.founds h)
  | updates h => exact .inl h.frame.1
  | dissolves h => exact .inl h.members_eq
  | changesRole _ h => exact .inr (.changesRole rfl h)
  | removes _ h => exact .inr (.removes rfl h)
  | leaves _ h => exact .inr (.removes rfl h)
  | sends h _ => exact .inl h.frame.2
  | accepts h => exact .inr (.accepts h)
  | lapses h => exact .inl h.frame.2
  | rejects h => exact .inl h.frame.2
  | revokes h => exact .inl h.frame.2
  | sweeps h => exact .inl h.frame.2
  | changesRoleDirectly h => exact .inr (.changesRole rfl h)
  | removesDirectly h => exact .inr (.removes rfl h)
  | leavesDirectly h => exact .inr (.removes rfl h)

/-- The members after a founding are those before it and the owner. -/
theorem Founding.members_perm {config : Config} {input : CreateTeam} {name : String}
    {now : Instant} {team : Team} (h : Founding rely config input name now w s team) :
    ∃ member : Member, member.teamId = team.id ∧ member.userId = team.ownerId ∧
      w.store.isMember member.teamId member.userId = false ∧
      s.members.Perm (member :: w.store.members) := by
  obtain ⟨founded, member, hcreate, hadd⟩ := h.written
  obtain ⟨hnew, rfl, hperm, -⟩ := Tables.addMember_ok hadd
  obtain ⟨-, -, rfl⟩ := Tables.createTeam_ok hcreate
  refine ⟨_, rfl, rfl, ?_, hperm⟩
  exact hnew

/-- The members after an acceptance are those before it and the new one. -/
theorem Acceptance.members_perm {token : Secret} {user : Int} {email : String}
    {invitation : Invitation} {member : Member}
    (h : Acceptance rely token user email invitation w s member) :
    member.teamId = invitation.teamId ∧ member.userId = user ∧ member.role = invitation.role ∧
      w.store.isMember member.teamId member.userId = false ∧
      s.members.Perm (member :: w.store.members) := by
  obtain ⟨team, joined, accepted, hteam, -, hadd, hsettle⟩ := h.written
  obtain ⟨-, hid, -⟩ := Tables.findTeam_some hteam
  obtain ⟨hnew, rfl, hperm, -⟩ := Tables.addMember_ok hadd
  refine ⟨hid, rfl, rfl, hnew, ?_⟩
  rw [(Tables.settleInvitation_frame hsettle).2]
  exact hperm

/-- Members only come with a team that they found or by an invitation that they
accept. -/
theorem Call.Deed.member_joined (h : call.Deed rely w s result) {m : Member}
    (hm : m ∈ s.members) (hnew : w.store.isMember m.teamId m.userId = false) :
    (∃ config input name now team, call = .act config (.createTeam input) ∧
      Founding rely config input name now w s team ∧ m.teamId = team.id ∧
      m.userId = input.ownerId) ∨
    ∃ config token user email invitation, call = .act config (.acceptInvitation token user email) ∧
      Acceptance rely token user email invitation w s m := by
  -- nobody had this key before, so no kept or changed row explains `m`
  have hno : ∀ m' ∈ w.store.members, m'.teamId = m.teamId → m'.userId = m.userId → False := by
    intro m' hm' hteam huser
    rw [Tables.isMember_iff.mpr ⟨m', hm', hteam, huser⟩] at hnew
    cases hnew
  rcases h.members with heq | hdeed
  · exact (hno m (heq ▸ hm) rfl rfl).elim
  · cases hdeed with
    | founds h =>
      obtain ⟨-, howner, -⟩ := h.teams_eq
      obtain ⟨member, hteam, huser, -, hperm⟩ := h.members_perm
      rcases List.mem_cons.mp (hperm.mem_iff.mp hm) with rfl | hold
      · exact .inl ⟨_, _, _, _, _, rfl, h, hteam, huser.trans howner⟩
      · exact (hno m hold rfl rfl).elim
    | changesRole _ h =>
      obtain ⟨member, hfound, rfl, rfl⟩ := Tables.setRole_ok h.written
      obtain ⟨hmem, -, -⟩ := Tables.findMember_some hfound
      obtain ⟨m', hm', rfl⟩ := List.mem_map.mp hm
      split at hno
      · exact (hno member hmem rfl rfl).elim
      · exact (hno m' hm' rfl rfl).elim
    | removes _ h =>
      obtain ⟨-, rfl⟩ := Tables.removeMember_ok h.written
      exact (hno m (List.mem_of_mem_filter hm) rfl rfl).elim
    | accepts h =>
      obtain ⟨-, -, -, -, hperm⟩ := h.members_perm
      rcases List.mem_cons.mp (hperm.mem_iff.mp hm) with rfl | hold
      · exact .inr ⟨_, _, _, _, _, rfl, h⟩
      · exact (hno m hold rfl rfl).elim

/-- Members only go when they are removed. -/
theorem Call.Deed.member_left (h : call.Deed rely w s result) {m : Member}
    (hm : m ∈ w.store.members) (hgone : s.isMember m.teamId m.userId = false) :
    ∃ requester, call.removal? = some (m.teamId, m.userId, requester) ∧
      Removal rely m.teamId m.userId requester w s := by
  -- nobody has this key any more, so `m` is among the rows that went
  have hno : ∀ m' ∈ s.members, m'.teamId = m.teamId → m'.userId = m.userId → False := by
    intro m' hm' hteam huser
    rw [Tables.isMember_iff.mpr ⟨m', hm', hteam, huser⟩] at hgone
    cases hgone
  rcases h.members with heq | hdeed
  · exact (hno m (heq ▸ hm) rfl rfl).elim
  · cases hdeed with
    | founds h =>
      obtain ⟨_, -, -, -, hperm⟩ := h.members_perm
      exact (hno m (hperm.mem_iff.mpr (List.mem_cons_of_mem _ hm)) rfl rfl).elim
    | changesRole _ h =>
      obtain ⟨member, hfound, rfl, rfl⟩ := Tables.setRole_ok h.written
      obtain ⟨-, hteam, huser⟩ := Tables.findMember_some hfound
      by_cases hkey : m.isOf member.teamId member.userId = true
      · obtain ⟨hmteam, hmuser⟩ := Member.isOf_iff.mp hkey
        refine (hno _ (List.mem_map_of_mem hm) ?_ ?_).elim
        · rw [← hteam, ← huser, if_pos hkey]
          exact hmteam.symm
        · rw [← hteam, ← huser, if_pos hkey]
          exact hmuser.symm
      · refine (hno _ (List.mem_map_of_mem hm) ?_ ?_).elim
        · rw [← hteam, ← huser, if_neg hkey]
        · rw [← hteam, ← huser, if_neg hkey]
    | @removes _ team target requester _ _ hcall h =>
      have hkey : m.isOf team target = true := by
        obtain ⟨-, rfl⟩ := Tables.removeMember_ok h.written
        by_contra hother
        exact hno m (List.mem_filter.mpr ⟨hm, by simpa using hother⟩) rfl rfl
      obtain ⟨rfl, rfl⟩ := Member.isOf_iff.mp hkey
      exact ⟨requester, hcall, h⟩
    | accepts h =>
      obtain ⟨-, -, -, -, hperm⟩ := h.members_perm
      exact (hno m (hperm.mem_iff.mpr (List.mem_cons_of_mem _ hm)) rfl rfl).elim

/-- Roles only change when somebody asks for it. -/
theorem Call.Deed.role_changed (h : call.Deed rely w s result) (hk : w.store.Keyed)
    {m m' : Member} (hm : m ∈ w.store.members) (hm' : m' ∈ s.members)
    (hteam : m'.teamId = m.teamId) (huser : m'.userId = m.userId) (hrole : m'.role ≠ m.role) :
    ∃ requester now, call.roleChange? = some (m.teamId, m.userId, requester, m'.role) ∧
      RoleChange rely m.teamId m.userId requester m'.role now w s m' := by
  -- an old row with the key of `m` is `m` itself
  have hno : m' ∈ w.store.members → False := by
    intro hold
    exact hrole (congrArg Member.role (hk.member_eq hold hm hteam huser))
  have hmember : w.store.isMember m'.teamId m'.userId = true :=
    Tables.isMember_iff.mpr ⟨m, hm, hteam.symm, huser.symm⟩
  rcases h.members with heq | hdeed
  · exact (hno (heq ▸ hm')).elim
  · cases hdeed with
    | founds h =>
      obtain ⟨member, -, -, hnew, hperm⟩ := h.members_perm
      rcases List.mem_cons.mp (hperm.mem_iff.mp hm') with rfl | hold
      · -- the new row has a new key, and `m` has this one
        rw [hnew] at hmember
        cases hmember
      · exact (hno hold).elim
    | @changesRole _ team target requester role now _ _ changed hcall h =>
      have hchanged : m'.isOf team target = true ∧ m' = changed := by
        obtain ⟨member, hfound, rfl, rfl⟩ := Tables.setRole_ok h.written
        obtain ⟨-, hmteam, hmuser⟩ := Tables.findMember_some hfound
        obtain ⟨old, hold, rfl⟩ := List.mem_map.mp hm'
        by_cases hkey : old.isOf team target = true
        · rw [if_pos hkey]
          exact ⟨Member.isOf_iff.mpr ⟨hmteam, hmuser⟩, rfl⟩
        · rw [if_neg hkey] at hno
          exact (hno hold).elim
      obtain ⟨hkey, rfl⟩ := hchanged
      obtain ⟨rfl, rfl⟩ := Member.isOf_iff.mp hkey
      have hset : m'.role = role := by
        obtain ⟨-, -, rfl, -⟩ := Tables.setRole_ok h.written
        rfl
      subst hset
      rw [← hteam, ← huser]
      exact ⟨requester, now, hcall, h⟩
    | removes _ h =>
      obtain ⟨-, rfl⟩ := Tables.removeMember_ok h.written
      exact (hno (List.mem_of_mem_filter hm')).elim
    | accepts h =>
      obtain ⟨-, -, -, hnew, hperm⟩ := h.members_perm
      rcases List.mem_cons.mp (hperm.mem_iff.mp hm') with rfl | hold
      · rw [hnew] at hmember
        cases hmember
      · exact (hno hold).elim

/-! ## Invitations -/

variable (rely) in
/-- The deeds that change invitations. -/
inductive Call.InvitationDeed : Call → World Tables → Tables → Prop
  | dissolves {config team requester now w s count} :
    Dissolution rely team requester now w s count →
    InvitationDeed (.act config (.deleteTeam team requester)) w s
  | sends {config team inviter email role invitee token now expiresAt w s invitation} :
    Sending rely config team inviter email role invitee token now expiresAt w s invitation →
    InvitationDeed (.act config (.sendInvitation team inviter email role)) w s
  | accepts {config token user email invitation w s member} :
    Acceptance rely token user email invitation w s member →
    InvitationDeed (.act config (.acceptInvitation token user email)) w s
  | lapses {config token user email invitation w s} : Lapse rely token email invitation w s →
    InvitationDeed (.act config (.acceptInvitation token user email)) w s
  | rejects {config token email invitation w s rejected} :
    Rejection rely token email invitation w s rejected →
    InvitationDeed (.act config (.rejectInvitation token email)) w s
  | revokes {config id requester invitation w s revoked} :
    Revocation rely id requester invitation w s revoked →
    InvitationDeed (.act config (.revokeInvitation id requester)) w s
  | sweeps {config team now w s count} : Sweep rely team now w s count →
    InvitationDeed (.act config (.expireStaleInvitations team)) w s

theorem Call.Deed.invitations (h : call.Deed rely w s result) :
    s.invitations = w.store.invitations ∨ call.InvitationDeed rely w s := by
  cases h with
  | founds h => exact .inl h.invitations_eq
  | updates h => exact .inl h.frame.2
  | dissolves h => exact .inr (.dissolves h)
  | changesRole _ h => exact .inl h.frame.2
  | removes _ h => exact .inl h.frame.2
  | leaves _ h => exact .inl h.frame.2
  | sends h _ => exact .inr (.sends h)
  | accepts h => exact .inr (.accepts h)
  | lapses h => exact .inr (.lapses h)
  | rejects h => exact .inr (.rejects h)
  | revokes h => exact .inr (.revokes h)
  | sweeps h => exact .inr (.sweeps h)
  | changesRoleDirectly h => exact .inl h.frame.2
  | removesDirectly h => exact .inl h.frame.2
  | leavesDirectly h => exact .inl h.frame.2

/-- An invitation that a settlement does not leave as it was is the settled
one. -/
theorem Tables.settleInvitation_gone {s s' : Tables} {id : Int} {status : InvitationStatus}
    {now : Instant} {settled i : Invitation}
    (h : s.settleInvitation id status now = .ok (some settled, s')) (hi : i ∈ s.invitations)
    (hgone : i ∉ s'.invitations) : i.id = id := by
  obtain ⟨_, -, -, -, rfl⟩ := settleInvitation_ok h
  by_contra hother
  exact hgone (List.mem_map.mpr ⟨i, hi, if_neg hother⟩)

/-- After a settlement the invitations have the ids that they had before. -/
theorem Tables.settleInvitation_id {s s' : Tables} {id : Int} {status : InvitationStatus}
    {now : Instant} {settled i : Invitation}
    (h : s.settleInvitation id status now = .ok (some settled, s')) (hi : i ∈ s'.invitations) :
    ∃ j ∈ s.invitations, j.id = i.id := by
  obtain ⟨found, hfound, -, rfl, rfl⟩ := settleInvitation_ok h
  obtain ⟨hmem, -⟩ := findInvitation_some hfound
  obtain ⟨j, hj, rfl⟩ := List.mem_map.mp hi
  split
  · exact ⟨found, hmem, rfl⟩
  · exact ⟨j, hj, rfl⟩

/-- An invitation that a sweep does not leave as it was is one of those that it
moves. -/
theorem Tables.settleAll_gone {s s' : Tables} {p : Invitation → Bool} {status : InvitationStatus}
    {count : Nat} {i : Invitation} (h : s.settleAll p status = (count, s'))
    (hi : i ∈ s.invitations) (hgone : i ∉ s'.invitations) : p i = true := by
  obtain ⟨-, rfl⟩ := settleAll_eq h
  by_contra hother
  have hstays : ¬(i.isPending && p i) = true := by
    intro hmoves
    rw [Bool.and_eq_true] at hmoves
    exact hother hmoves.2
  exact hgone (List.mem_map.mpr ⟨i, hi, if_neg hstays⟩)

theorem Tables.settleAll_id {s s' : Tables} {p : Invitation → Bool} {status : InvitationStatus}
    {count : Nat} {i : Invitation} (h : s.settleAll p status = (count, s'))
    (hi : i ∈ s'.invitations) : ∃ j ∈ s.invitations, j.id = i.id := by
  obtain ⟨-, rfl⟩ := settleAll_eq h
  obtain ⟨j, hj, rfl⟩ := List.mem_map.mp hi
  refine ⟨j, hj, ?_⟩
  split <;> rfl

/-- The deletion of a team does to invitations what its sweep does. -/
theorem Dissolution.sweep {team requester : Int} {now : Instant} {count : Nat}
    (h : Dissolution rely team requester now w s count) :
    ∃ deleted : Tables, deleted.invitations = w.store.invitations ∧
      deleted.settleAll (fun i => i.teamId = team) .revoked = (count, s) := by
  obtain ⟨deleted, hdelete, hsettle⟩ := h.written
  refine ⟨deleted, ?_, hsettle⟩
  obtain ⟨-, rfl⟩ := Tables.deleteTeam_ok hdelete
  rfl

/-- The settlement at the end of an acceptance is upon the invitations that were
there. -/
theorem Acceptance.settlement {token : Secret} {user : Int} {email : String}
    {invitation : Invitation} {member : Member}
    (h : Acceptance rely token user email invitation w s member) :
    ∃ (joined : Tables) (accepted : Invitation), joined.invitations = w.store.invitations ∧
      joined.settleInvitation invitation.id .accepted w.clock = .ok (some accepted, s) := by
  obtain ⟨team, joined, accepted, -, -, hadd, hsettle⟩ := h.written
  obtain ⟨-, -, -, heq⟩ := Tables.addMember_ok hadd
  exact ⟨joined, accepted, by rw [heq], hsettle⟩

/-- New invitations are only issued by sending them. -/
theorem Call.Deed.invitation_issued (h : call.Deed rely w s result) {i : Invitation}
    (hi : i ∈ s.invitations) (hnew : ∀ j ∈ w.store.invitations, j.id ≠ i.id) :
    ∃ config email invitee token now expiresAt,
      call = .act config (.sendInvitation i.teamId i.invitedBy email i.role) ∧
      Sending rely config i.teamId i.invitedBy email i.role invitee token now expiresAt w s i := by
  have hno : (∃ j ∈ w.store.invitations, j.id = i.id) → False := by
    rintro ⟨j, hj, hid⟩
    exact hnew j hj hid
  rcases h.invitations with heq | hdeed
  · exact (hno ⟨i, heq ▸ hi, rfl⟩).elim
  · cases hdeed with
    | dissolves h =>
      obtain ⟨deleted, heq, hsettle⟩ := h.sweep
      exact (hno (heq ▸ Tables.settleAll_id hsettle hi)).elim
    | @sends config team inviter email role invitee token now expiresAt _ _ invitation h =>
      obtain ⟨-, -, hinvitation, heq⟩ := Tables.createInvitation_ok h.written
      rw [congrArg Tables.invitations heq] at hi
      rcases List.mem_append.mp hi with hold | hlast
      · exact (hno ⟨i, hold, rfl⟩).elim
      · obtain rfl := List.mem_singleton.mp hlast
        have hteam : i.teamId = team := congrArg Invitation.teamId hinvitation
        have hinviter : i.invitedBy = inviter := congrArg Invitation.invitedBy hinvitation
        have hrole : i.role = role := congrArg Invitation.role hinvitation
        subst hteam hinviter hrole
        exact ⟨config, email, invitee, token, now, expiresAt, rfl, h⟩
    | accepts h =>
      obtain ⟨joined, accepted, heq, hsettle⟩ := h.settlement
      exact (hno (heq ▸ Tables.settleInvitation_id hsettle hi)).elim
    | lapses h =>
      obtain ⟨now, lapsed, hsettle⟩ := h.written
      exact (hno (Tables.settleInvitation_id hsettle hi)).elim
    | rejects h =>
      obtain ⟨now, hsettle⟩ := h.written
      exact (hno (Tables.settleInvitation_id hsettle hi)).elim
    | revokes h =>
      obtain ⟨now, hsettle⟩ := h.written
      exact (hno (Tables.settleInvitation_id hsettle hi)).elim
    | sweeps h => exact (hno (Tables.settleAll_id h.written hi)).elim

variable (rely) in
/-- The deeds that settle an invitation. -/
inductive Call.SettlingDeed (i : Invitation) : Call → World Tables → Tables → Prop
  | dissolves {config requester now w s count} :
    Dissolution rely i.teamId requester now w s count →
    SettlingDeed i (.act config (.deleteTeam i.teamId requester)) w s
  | accepts {config token user email invitation w s member} : i.id = invitation.id →
    Acceptance rely token user email invitation w s member →
    SettlingDeed i (.act config (.acceptInvitation token user email)) w s
  | lapses {config token user email invitation w s} : i.id = invitation.id →
    Lapse rely token email invitation w s →
    SettlingDeed i (.act config (.acceptInvitation token user email)) w s
  | rejects {config token email invitation w s rejected} : i.id = invitation.id →
    Rejection rely token email invitation w s rejected →
    SettlingDeed i (.act config (.rejectInvitation token email)) w s
  | revokes {config requester invitation w s revoked} :
    Revocation rely i.id requester invitation w s revoked →
    SettlingDeed i (.act config (.revokeInvitation i.id requester)) w s
  | sweeps {config team now w s count} : i.isExpiredAt now = true →
    Sweep rely team now w s count →
    SettlingDeed i (.act config (.expireStaleInvitations team)) w s

/-- An invitation only changes when it is settled. -/
theorem Call.Deed.invitation_settled (h : call.Deed rely w s result) {i : Invitation}
    (hi : i ∈ w.store.invitations) (hgone : i ∉ s.invitations) : call.SettlingDeed rely i w s := by
  rcases h.invitations with heq | hdeed
  · exact absurd (heq ▸ hi) hgone
  · cases hdeed with
    | dissolves h =>
      obtain ⟨deleted, heq, hsettle⟩ := h.sweep
      have hteam := of_decide_eq_true (Tables.settleAll_gone hsettle (heq ▸ hi) hgone)
      subst hteam
      exact .dissolves h
    | sends h =>
      obtain ⟨-, -, -, heq⟩ := Tables.createInvitation_ok h.written
      rw [heq] at hgone
      exact absurd (List.mem_append_left _ hi) hgone
    | accepts h =>
      obtain ⟨joined, accepted, heq, hsettle⟩ := h.settlement
      exact .accepts (Tables.settleInvitation_gone hsettle (heq ▸ hi) hgone) h
    | lapses h =>
      obtain ⟨now, lapsed, hsettle⟩ := h.written
      exact .lapses (Tables.settleInvitation_gone hsettle hi hgone) h
    | rejects h =>
      obtain ⟨now, hsettle⟩ := h.written
      exact .rejects (Tables.settleInvitation_gone hsettle hi hgone) h
    | revokes h =>
      obtain ⟨v, -, -, hfound⟩ := h.found
      obtain ⟨-, hid⟩ := Tables.findInvitation_some hfound
      obtain ⟨now, hsettle⟩ := h.written
      have hsame := (Tables.settleInvitation_gone hsettle hi hgone).trans hid
      subst hsame
      exact .revokes h
    | sweeps h =>
      have hswept := Tables.settleAll_gone h.written hi hgone
      rw [Bool.and_eq_true] at hswept
      exact .sweeps hswept.2 h

end

end Roster
