import Roster.Proofs.Deed.Basic
import Roster.Proofs.Tables.Keyed

/-!
# What deeds preserve

* `Rely.Orderly` — a company that keeps the keys, among which tables only
  evolve; `Call.Deed.keyed` and `Call.Deed.evolves` — every deed done in such a
  company does the same;
* `Tables.Owned` — every team has its owner's membership, and nobody else has
  that role; `Call.Deed.owned` — deeds keep that too, although they go by rows
  that were read earlier.
-/

namespace Roster

/-- Others keep the keys, and tables evolve among them. -/
structure Rely.Orderly (rely : Rely) : Prop where
  keyed : ∀ {w}, rely.inv w → w.store.Keyed
  evolves : ∀ {v w}, rely.leads v w → v.store.Evolves w.store

section

variable {rely : Rely} {w : World Tables}

/-- A team that was seen is still there, under its id and its owner. -/
theorem Rely.Seen.team (horderly : rely.Orderly) {id : Int} {before : Team}
    (h : rely.Seen w fun v => v.store.findTeam id = some before) :
    before.id = id ∧ ∃ t ∈ w.store.teams, t.id = before.id ∧ t.ownerId = before.ownerId ∧
      t.createdAt = before.createdAt := by
  obtain ⟨v, _, hlead, hfound⟩ := h
  obtain ⟨hmem, hid, _⟩ := Tables.findTeam_some hfound
  obtain ⟨t, ht, htid, howner, hdate, _⟩ := (horderly.evolves hlead).teams before hmem
  exact ⟨hid, t, ht, htid, howner, hdate⟩

end

namespace UpdateTeam

variable (input : UpdateTeam) (name : Option String) (team : Team) (now : Instant)

/-- What an update does not ask for is as it was in the record that was read. -/
theorem revise_kept :
    (input.revise name team now).id = team.id ∧
      (input.revise name team now).ownerId = team.ownerId ∧
      (input.revise name team now).createdAt = team.createdAt ∧
      (input.revise name team now).status = team.status := by
  cases hlimit : input.memberLimit <;> cases hvisibility : input.visibility <;>
    cases hdescription : input.description <;> cases name <;>
    simp [revise, hlimit, hvisibility, hdescription, applyVisibility, applyDescription,
      Team.rename, Team.describe, Team.setVisibility]

/-- Each field that is given is written, and every other one is as it was read. -/
theorem revise_fields :
    (input.revise name team now).name = name.getD team.name ∧
      (input.revise name team now).slug = name.elim team.slug slugify ∧
      (input.revise name team now).description = input.description.getD team.description ∧
      (input.revise name team now).visibility = input.visibility.getD team.visibility ∧
      (input.revise name team now).memberLimit = input.memberLimit.getD team.memberLimit := by
  cases hlimit : input.memberLimit <;> cases hvisibility : input.visibility <;>
    cases hdescription : input.description <;> cases name <;>
    simp [revise, hlimit, hvisibility, hdescription, applyVisibility, applyDescription,
      Team.rename, Team.describe, Team.setVisibility]

@[simp]
theorem revise_id : (input.revise name team now).id = team.id :=
  (input.revise_kept name team now).1

@[simp]
theorem revise_ownerId : (input.revise name team now).ownerId = team.ownerId :=
  (input.revise_kept name team now).2.1

@[simp]
theorem revise_createdAt : (input.revise name team now).createdAt = team.createdAt :=
  (input.revise_kept name team now).2.2.1

@[simp]
theorem revise_status : (input.revise name team now).status = team.status :=
  (input.revise_kept name team now).2.2.2

end UpdateTeam

section

variable {rely : Rely} {call : Call} {w : World Tables} {s : Tables}
  {result : Except Failure Answer}

/-- The record that an update writes has the owner and the date of the row that
it replaces. -/
theorem Update.same_origin (horderly : rely.Orderly) (hinv : rely.inv w) {input : UpdateTeam}
    {name : Option String} {before : Team} {now : Instant} {team : Team}
    (h : Update rely input name before now w s team) {t : Team} (ht : t ∈ w.store.teams)
    (hid : t.id = (input.revise name before now).id) :
    (input.revise name before now).ownerId = t.ownerId ∧
      (input.revise name before now).createdAt = t.createdAt := by
  obtain ⟨-, row, hrow, hrid, howner, hdate⟩ := h.found.team horderly
  have heq : t = row := by
    refine (horderly.keyed hinv).team_eq ht hrow ?_
    rw [hid, hrid, UpdateTeam.revise_id]
  rw [heq, UpdateTeam.revise_ownerId, UpdateTeam.revise_createdAt]
  exact ⟨howner.symm, hdate.symm⟩

/-- Deeds keep the keys. -/
theorem Call.Deed.keyed (horderly : rely.Orderly) (hinv : rely.inv w)
    (h : call.Deed rely w s result) : s.Keyed := by
  have hk := horderly.keyed hinv
  cases h with
  | founds h =>
    obtain ⟨founded, member, hcreate, hadd⟩ := h.written
    exact Tables.addMember_keyed hadd (Tables.createTeam_keyed hcreate hk)
  | updates h => exact Tables.updateTeam_keyed h.written hk
  | dissolves h =>
    obtain ⟨deleted, hdelete, hsettle⟩ := h.written
    exact Tables.settleAll_keyed hsettle (Tables.deleteTeam_keyed hdelete hk)
  | changesRole _ h => exact Tables.setRole_keyed h.written hk
  | removes _ h => exact Tables.removeMember_keyed h.written hk
  | leaves _ h => exact Tables.removeMember_keyed h.written hk
  | sends h _ => exact Tables.createInvitation_keyed h.written hk
  | accepts h =>
    obtain ⟨team, joined, accepted, -, -, hadd, hsettle⟩ := h.written
    exact Tables.settleInvitation_keyed hsettle (Tables.addMember_keyed hadd hk)
  | lapses h =>
    obtain ⟨now, lapsed, hsettle⟩ := h.written
    exact Tables.settleInvitation_keyed hsettle hk
  | rejects h =>
    obtain ⟨now, hsettle⟩ := h.written
    exact Tables.settleInvitation_keyed hsettle hk
  | revokes h =>
    obtain ⟨now, hsettle⟩ := h.written
    exact Tables.settleInvitation_keyed hsettle hk
  | sweeps h => exact Tables.settleAll_keyed h.written hk
  | changesRoleDirectly h => exact Tables.setRole_keyed h.written hk
  | removesDirectly h => exact Tables.removeMember_keyed h.written hk
  | leavesDirectly h => exact Tables.removeMember_keyed h.written hk

/-- Changes of members leave teams and invitations alone. -/
theorem RoleChange.evolves {team target requester : Int} {role : Role} {now : Instant}
    {changed : Member} (h : RoleChange rely team target requester role now w s changed) :
    w.store.Evolves s := by
  obtain ⟨_, -, -, rfl⟩ := Tables.setRole_ok h.written
  exact .of_eq rfl rfl

theorem Removal.evolves {team target requester : Int}
    (h : Removal rely team target requester w s) : w.store.Evolves s := by
  obtain ⟨-, rfl⟩ := Tables.removeMember_ok h.written
  exact .of_eq rfl rfl

/-- Tables evolve by deeds. -/
theorem Call.Deed.evolves (horderly : rely.Orderly) (hinv : rely.inv w)
    (h : call.Deed rely w s result) : w.store.Evolves s := by
  have hk := horderly.keyed hinv
  cases h with
  | founds h =>
    obtain ⟨founded, member, hcreate, hadd⟩ := h.written
    obtain ⟨-, -, -, heq⟩ := Tables.addMember_ok hadd
    rw [heq]
    exact (Tables.createTeam_evolves hcreate).trans (.of_eq rfl rfl)
  | updates h =>
    exact Tables.updateTeam_evolves h.written hk fun t ht hid =>
      h.same_origin horderly hinv ht hid
  | dissolves h =>
    obtain ⟨deleted, hdelete, hsettle⟩ := h.written
    exact (Tables.deleteTeam_evolves hdelete hk).trans (Tables.settleAll_evolves hsettle)
  | changesRole _ h => exact h.evolves
  | removes _ h => exact h.evolves
  | leaves _ h => exact h.evolves
  | sends h _ => exact Tables.createInvitation_evolves h.written
  | accepts h =>
    obtain ⟨team, joined, accepted, -, -, hadd, hsettle⟩ := h.written
    have hjoined := Tables.addMember_keyed hadd hk
    obtain ⟨-, -, -, heq⟩ := Tables.addMember_ok hadd
    have hsettled := Tables.settleInvitation_evolves hsettle hjoined
    rw [heq] at hsettled
    exact ⟨hsettled.teams, hsettled.invitations⟩
  | lapses h =>
    obtain ⟨now, lapsed, hsettle⟩ := h.written
    exact Tables.settleInvitation_evolves hsettle hk
  | rejects h =>
    obtain ⟨now, hsettle⟩ := h.written
    exact Tables.settleInvitation_evolves hsettle hk
  | revokes h =>
    obtain ⟨now, hsettle⟩ := h.written
    exact Tables.settleInvitation_evolves hsettle hk
  | sweeps h => exact Tables.settleAll_evolves h.written
  | changesRoleDirectly h => exact h.evolves
  | removesDirectly h => exact h.evolves
  | leavesDirectly h => exact h.evolves

end

/-! ## Ownership -/

/-- Every team has its owner's membership; every membership is of a team, and
its role is the owner's exactly if its user is the team's owner. -/
structure Tables.Owned (s : Tables) : Prop where
  owners : ∀ t ∈ s.teams, ∃ m ∈ s.members, m.teamId = t.id ∧ m.userId = t.ownerId
  roles : ∀ m ∈ s.members, ∃ t ∈ s.teams, t.id = m.teamId ∧
    (m.role = .owner ↔ m.userId = t.ownerId)

namespace Tables

theorem empty_owned : empty.Owned where
  owners := fun _ ht => absurd ht List.not_mem_nil
  roles := fun _ hm => absurd hm List.not_mem_nil

variable {s s' : Tables}

/-- The only owner row of a team is its owner's. -/
theorem Owned.owner_row (ho : s.Owned) (hk : s.Keyed) {t : Team} (ht : t ∈ s.teams) :
    ∃ row, s.members.filter (fun m => m.teamId = t.id && m.role = .owner) = [row] ∧
      row.userId = t.ownerId := by
  obtain ⟨row, hrow, hteam, huser⟩ := ho.owners t ht
  refine ⟨row, filter_eq_singleton (List.Nodup.of_map _ hk.members) hrow ?_ ?_, huser⟩
  · obtain ⟨t', ht', hid, hiff⟩ := ho.roles row hrow
    have heq : t' = t := hk.team_eq ht' ht (hid.trans hteam)
    subst heq
    rw [Bool.and_eq_true, decide_eq_true_eq, decide_eq_true_eq]
    exact ⟨hteam, hiff.mpr huser⟩
  · intro m hm hp
    rw [Bool.and_eq_true, decide_eq_true_eq, decide_eq_true_eq] at hp
    obtain ⟨hmteam, hmrole⟩ := hp
    obtain ⟨t', ht', hid, hiff⟩ := ho.roles m hm
    have heq : t' = t := hk.team_eq ht' ht (hid.trans hmteam)
    subst heq
    exact hk.member_eq hm hrow (hmteam.trans hteam.symm) ((hiff.mp hmrole).trans huser.symm)

/-- Changing teams in place, each with its id and owner kept, keeps ownership. -/
theorem Owned.map_teams (ho : s.Owned) {f : Team → Team} (hid : ∀ t ∈ s.teams, (f t).id = t.id)
    (howner : ∀ t ∈ s.teams, (f t).ownerId = t.ownerId) :
    Owned { s with teams := s.teams.map f } where
  owners := by
    intro t ht
    obtain ⟨u, hu, rfl⟩ := List.mem_map.mp ht
    rw [hid u hu, howner u hu]
    exact ho.owners u hu
  roles := by
    intro m hm
    obtain ⟨t, ht, htid, hiff⟩ := ho.roles m hm
    refine ⟨f t, List.mem_map_of_mem ht, (hid t ht).trans htid, ?_⟩
    rw [howner t ht]
    exact hiff

/-- Ownership is about teams and members only. -/
theorem Owned.of_eq (ho : s.Owned) (hteams : s'.teams = s.teams)
    (hmembers : s'.members = s.members) : s'.Owned where
  owners := by
    rw [hteams, hmembers]
    exact ho.owners
  roles := by
    rw [hteams, hmembers]
    exact ho.roles

/-- A team founded under a fresh id is its owner's. -/
theorem Owned.found {draft : TeamDraft} {team : Team} {member : Member} (ho : s.Owned)
    {between : Tables} (hcreate : s.createTeam draft = .ok (team, between))
    (hadd : between.addMember ⟨team.id, team.ownerId, .owner, team.createdAt⟩ = .ok (member, s')) :
    s'.Owned := by
  obtain ⟨-, -, rfl⟩ := createTeam_ok hcreate
  obtain ⟨-, rfl, hperm, heq⟩ := addMember_ok hadd
  have hteams : s'.teams = s.teams ++ [team] := congrArg Tables.teams heq
  constructor
  · intro t ht
    rw [hteams] at ht
    rcases List.mem_append.mp ht with ht | ht
    · obtain ⟨m, hm, hkey⟩ := ho.owners t ht
      exact ⟨m, hperm.mem_iff.mpr (List.mem_cons_of_mem _ hm), hkey⟩
    · rw [List.mem_singleton.mp ht]
      exact ⟨_, hperm.mem_iff.mpr List.mem_cons_self, rfl, rfl⟩
  · intro m hm
    rw [hteams]
    rcases List.mem_cons.mp (hperm.mem_iff.mp hm) with rfl | hm
    · refine ⟨team, List.mem_append_right _ List.mem_cons_self, rfl, ?_⟩
      exact iff_of_true rfl rfl
    · obtain ⟨t, ht, hkey⟩ := ho.roles m hm
      exact ⟨t, List.mem_append_left _ ht, hkey⟩

/-- A new member of an existing team who is not its owner keeps ownership: the
owner's key is taken. -/
theorem Owned.add {draft : MemberDraft} {member : Member} (ho : s.Owned)
    (hadd : s.addMember draft = .ok (member, s')) (hrole : draft.role ≠ .owner) {t : Team}
    (ht : t ∈ s.teams) (hid : t.id = draft.teamId) : s'.Owned := by
  obtain ⟨hnew, rfl, hperm, heq⟩ := addMember_ok hadd
  have hteams : s'.teams = s.teams := by rw [heq]
  -- the owner is a member already, so the store would have refused them
  have hother : draft.userId ≠ t.ownerId := by
    intro huser
    obtain ⟨m, hm, hmteam, hmuser⟩ := ho.owners t ht
    have hmember := isMember_iff.mpr ⟨m, hm, hmteam.trans hid, hmuser.trans huser.symm⟩
    rw [hnew] at hmember
    cases hmember
  constructor
  · intro t' ht'
    rw [hteams] at ht'
    obtain ⟨m, hm, hkey⟩ := ho.owners t' ht'
    exact ⟨m, hperm.mem_iff.mpr (List.mem_cons_of_mem _ hm), hkey⟩
  · intro m hm
    rw [hteams]
    rcases List.mem_cons.mp (hperm.mem_iff.mp hm) with rfl | hm
    · exact ⟨t, ht, hid, iff_of_false hrole hother⟩
    · exact ho.roles m hm

/-- A role that is not the owner's, given to somebody who is not the owner,
keeps ownership. -/
theorem Owned.setRole {team user : Int} {role : Role} {now : Instant} {changed : Member}
    (ho : s.Owned) (hk : s.Keyed) (hset : s.setRole team user role now = .ok (changed, s'))
    (hrole : role ≠ .owner) {t : Team} (ht : t ∈ s.teams) (hid : t.id = team)
    (hother : user ≠ t.ownerId) : s'.Owned := by
  obtain ⟨member, hfound, rfl, rfl⟩ := setRole_ok hset
  obtain ⟨hmember, hteam, huser⟩ := findMember_some hfound
  constructor
  · intro t' ht'
    obtain ⟨m, hm, hmteam, hmuser⟩ := ho.owners t' ht'
    refine ⟨_, List.mem_map_of_mem hm, ?_⟩
    by_cases hkey : m.isOf team user = true
    · -- the owner's row is not the one that changes
      obtain ⟨hkteam, hkuser⟩ := Member.isOf_iff.mp hkey
      have heq : t' = t := hk.team_eq ht' ht (hmteam.symm.trans (hkteam.trans hid.symm))
      subst heq
      exact absurd (hkuser.symm.trans hmuser) hother
    · rw [if_neg hkey]
      exact ⟨hmteam, hmuser⟩
  · intro m hm
    obtain ⟨m', hm', rfl⟩ := List.mem_map.mp hm
    by_cases hkey : m'.isOf team user = true
    · rw [if_pos hkey]
      refine ⟨t, ht, hid.trans hteam.symm, iff_of_false hrole ?_⟩
      rw [huser]
      exact hother
    · rw [if_neg hkey]
      exact ho.roles m' hm'

/-- Removing somebody who is not the owner keeps ownership. -/
theorem Owned.removeMember {team user : Int} {reply : Unit} (ho : s.Owned) (hk : s.Keyed)
    (hremove : s.removeMember team user = .ok (reply, s')) {t : Team} (ht : t ∈ s.teams)
    (hid : t.id = team) (hother : user ≠ t.ownerId) : s'.Owned := by
  obtain ⟨-, rfl⟩ := removeMember_ok hremove
  constructor
  · intro t' ht'
    obtain ⟨m, hm, hmteam, hmuser⟩ := ho.owners t' ht'
    refine ⟨m, List.mem_filter.mpr ⟨hm, ?_⟩, hmteam, hmuser⟩
    by_cases hkey : m.isOf team user = true
    · -- nor is the owner's row the one that goes
      obtain ⟨hkteam, hkuser⟩ := Member.isOf_iff.mp hkey
      have heq : t' = t := hk.team_eq ht' ht (hmteam.symm.trans (hkteam.trans hid.symm))
      subst heq
      exact absurd (hkuser.symm.trans hmuser) hother
    · simpa using hkey
  · intro m hm
    exact ho.roles m (List.mem_of_mem_filter hm)

end Tables

section

variable {rely : Rely} {call : Call} {w : World Tables} {s : Tables}
  {result : Except Failure Answer}

/-- Who was seen at another role than the owner's is not the owner, then or
ever after. -/
theorem Rely.Seen.not_owner (horderly : rely.Orderly)
    (howned : ∀ {w}, rely.inv w → w.store.Owned) {team user : Int}
    (h : rely.Seen w fun v => ∃ member, v.store.findMember team user = some member ∧
      member.role ≠ .owner) :
    ∃ t ∈ w.store.teams, t.id = team ∧ user ≠ t.ownerId := by
  obtain ⟨v, hinv, hlead, member, hfound, hrole⟩ := h
  obtain ⟨hmem, hteam, huser⟩ := Tables.findMember_some hfound
  obtain ⟨t, ht, hid, hiff⟩ := (howned hinv).roles member hmem
  -- the team has kept its owner since
  obtain ⟨t', ht', hid', howner, -⟩ := (horderly.evolves hlead).teams t ht
  refine ⟨t', ht', hid'.trans (hid.trans hteam), ?_⟩
  rw [howner, ← huser]
  exact fun heq => hrole (hiff.mpr heq)

theorem RoleChange.owned (horderly : rely.Orderly) (howned : ∀ {w}, rely.inv w → w.store.Owned)
    (hinv : rely.inv w) {team target requester : Int} {role : Role} {now : Instant}
    {changed : Member} (h : RoleChange rely team target requester role now w s changed) :
    s.Owned := by
  obtain ⟨t, ht, hid, hother⟩ := h.plain.not_owner horderly howned
  exact (howned hinv).setRole (horderly.keyed hinv) h.written h.role_ne ht hid hother

theorem Removal.owned (horderly : rely.Orderly) (howned : ∀ {w}, rely.inv w → w.store.Owned)
    (hinv : rely.inv w) {team target requester : Int}
    (h : Removal rely team target requester w s) : s.Owned := by
  obtain ⟨t, ht, hid, hother⟩ := h.plain.not_owner horderly howned
  exact (howned hinv).removeMember (horderly.keyed hinv) h.written ht hid hother

/-- A settlement leaves ownership alone. -/
theorem Tables.Owned.settleInvitation {s s' : Tables} (ho : s.Owned) {id : Int}
    {status : InvitationStatus} {now : Instant} {settled : Invitation}
    (h : s.settleInvitation id status now = .ok (some settled, s')) : s'.Owned := by
  obtain ⟨_, -, -, -, rfl⟩ := Tables.settleInvitation_ok h
  exact ho.of_eq rfl rfl

/-- Deeds keep ownership. -/
theorem Call.Deed.owned (horderly : rely.Orderly) (howned : ∀ {w}, rely.inv w → w.store.Owned)
    (hinv : rely.inv w) (h : call.Deed rely w s result) : s.Owned := by
  have ho := howned hinv
  cases h with
  | founds h =>
    obtain ⟨founded, member, hcreate, hadd⟩ := h.written
    exact ho.found hcreate hadd
  | updates h =>
    obtain ⟨-, -, -, rfl⟩ := Tables.updateTeam_ok h.written
    refine ho.map_teams ?_ ?_
    · intro t ht
      split
      · rename_i hid
        exact hid.symm
      · rfl
    · intro t ht
      split
      · rename_i hid
        exact (h.same_origin horderly hinv ht hid).1
      · rfl
  | dissolves h =>
    obtain ⟨deleted, hdelete, hsettle⟩ := h.written
    obtain ⟨-, rfl⟩ := Tables.deleteTeam_ok hdelete
    obtain ⟨-, rfl⟩ := Tables.settleAll_eq hsettle
    refine (ho.map_teams ?_ ?_).of_eq rfl rfl
    · intro t _
      split <;> rfl
    · intro t _
      split <;> rfl
  | changesRole _ h => exact h.owned horderly howned hinv
  | removes _ h => exact h.owned horderly howned hinv
  | leaves _ h => exact h.owned horderly howned hinv
  | sends h _ =>
    obtain ⟨-, -, -, rfl⟩ := Tables.createInvitation_ok h.written
    exact ho.of_eq rfl rfl
  | accepts h =>
    obtain ⟨team, joined, accepted, hteam, -, hadd, hsettle⟩ := h.written
    obtain ⟨hmem, -, -⟩ := Tables.findTeam_some hteam
    exact (ho.add hadd h.role_ne hmem rfl).settleInvitation hsettle
  | lapses h =>
    obtain ⟨now, lapsed, hsettle⟩ := h.written
    exact ho.settleInvitation hsettle
  | rejects h =>
    obtain ⟨now, hsettle⟩ := h.written
    exact ho.settleInvitation hsettle
  | revokes h =>
    obtain ⟨now, hsettle⟩ := h.written
    exact ho.settleInvitation hsettle
  | sweeps h =>
    obtain ⟨-, rfl⟩ := Tables.settleAll_eq h.written
    exact ho.of_eq rfl rfl
  | changesRoleDirectly h => exact h.owned horderly howned hinv
  | removesDirectly h => exact h.owned horderly howned hinv
  | leavesDirectly h => exact h.owned horderly howned hinv

end

end Roster
