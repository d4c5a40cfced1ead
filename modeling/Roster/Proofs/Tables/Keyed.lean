import Roster.Proofs.Tables.Writes

/-!
# Keys, and how tables evolve

* `Tables.Keyed` — no two rows of a table share a key, and no id lies above the
  last one given out; every store in memory is keyed;
* `Tables.Evolves` — what no call ever takes back: a team keeps its id, its
  owner and its date and is final once deleted, an invitation keeps its offer
  and is final once settled;
* one lemma for each write: it keeps the keys, and the tables evolve by it.
-/

namespace Roster

/-- What an invitation offers, whatever became of it. -/
def Invitation.offer (invitation : Invitation) : Invitation :=
  { invitation with status := .pending, acceptedAt := none }

/-- What the same offer has in common. -/
theorem Invitation.offer_eq {i j : Invitation} (h : i.offer = j.offer) :
    i.id = j.id ∧ i.teamId = j.teamId ∧ i.email = j.email ∧ i.role = j.role ∧
      i.tokenHash = j.tokenHash ∧ i.expiresAt = j.expiresAt := by
  simp only [offer, Invitation.mk.injEq] at h
  obtain ⟨hid, hteam, -, hemail, -, hrole, hhash, -, hexpires, -⟩ := h
  exact ⟨hid, hteam, hemail, hrole, hhash, hexpires⟩

namespace Tables

/-- No two rows share a key, and ids are given out in ascending order. Token
digests are a second key of invitations. -/
structure Keyed (s : Tables) : Prop where
  teams : (s.teams.map (·.id)).Nodup
  members : (s.members.map fun m => (m.teamId, m.userId)).Nodup
  invitations : (s.invitations.map (·.id)).Nodup
  tokens : (s.invitations.map (·.tokenHash)).Nodup
  teams_le : ∀ t ∈ s.teams, t.id ≤ s.lastTeamId
  invitations_le : ∀ i ∈ s.invitations, i.id ≤ s.lastInvitationId

/-- What stays when tables change. -/
structure Evolves (s s' : Tables) : Prop where
  teams : ∀ t ∈ s.teams, ∃ t' ∈ s'.teams, t'.id = t.id ∧ t'.ownerId = t.ownerId ∧
    t'.createdAt = t.createdAt ∧ (t.status = .deleted → t' = t)
  invitations : ∀ i ∈ s.invitations, ∃ i' ∈ s'.invitations, i'.offer = i.offer ∧
    (i.isPending = false → i' = i)

theorem empty_keyed : empty.Keyed where
  teams := List.nodup_nil
  members := List.nodup_nil
  invitations := List.nodup_nil
  tokens := List.nodup_nil
  teams_le := fun _ ht => absurd ht List.not_mem_nil
  invitations_le := fun _ hi => absurd hi List.not_mem_nil

theorem Evolves.refl (s : Tables) : s.Evolves s where
  teams := fun t ht => ⟨t, ht, rfl, rfl, rfl, fun _ => rfl⟩
  invitations := fun i hi => ⟨i, hi, rfl, fun _ => rfl⟩

theorem Evolves.trans {s₁ s₂ s₃ : Tables} (h₁ : s₁.Evolves s₂) (h₂ : s₂.Evolves s₃) :
    s₁.Evolves s₃ where
  teams := by
    intro t ht
    obtain ⟨t', ht', hid, howner, hdate, hdeleted⟩ := h₁.teams t ht
    obtain ⟨t'', ht'', hid', howner', hdate', hdeleted'⟩ := h₂.teams t' ht'
    refine ⟨t'', ht'', hid'.trans hid, howner'.trans howner, hdate'.trans hdate, ?_⟩
    intro hst
    -- a deleted row passes both changes unchanged
    have heq := hdeleted hst
    exact (hdeleted' (heq ▸ hst)).trans heq
  invitations := by
    intro i hi
    obtain ⟨i', hi', hoffer, hfinal⟩ := h₁.invitations i hi
    obtain ⟨i'', hi'', hoffer', hfinal'⟩ := h₂.invitations i' hi'
    refine ⟨i'', hi'', hoffer'.trans hoffer, ?_⟩
    intro hst
    have heq := hfinal hst
    exact (hfinal' (heq ▸ hst)).trans heq

/-- Tables with the same teams and invitations evolve into each other. -/
theorem Evolves.of_eq {s s' : Tables} (hteams : s'.teams = s.teams)
    (hinvitations : s'.invitations = s.invitations) : s.Evolves s' where
  teams := fun t ht => ⟨t, hteams ▸ ht, rfl, rfl, rfl, fun _ => rfl⟩
  invitations := fun i hi => ⟨i, hinvitations ▸ hi, rfl, fun _ => rfl⟩

/-! ## Rows by their keys -/

/-- In a list without duplicates, what only one entry satisfies selects that
entry. -/
theorem filter_eq_singleton {α : Type} {l : List α} {p : α → Bool} {a : α} (hnodup : l.Nodup)
    (ha : a ∈ l) (hp : p a = true) (honly : ∀ b ∈ l, p b = true → b = a) : l.filter p = [a] := by
  refine List.perm_singleton.mp
    ((List.perm_ext_iff_of_nodup (hnodup.filter _) (List.nodup_singleton a)).mpr fun b => ?_)
  rw [List.mem_filter, List.mem_singleton]
  constructor
  · rintro ⟨hb, hpb⟩
    exact honly b hb hpb
  · rintro rfl
    exact ⟨ha, hp⟩

/-- Where no two entries share a key, an entry stands between entries with other keys. -/
theorem exists_between {α κ : Type} {key : α → κ} {l : List α} {a : α}
    (hkeys : (l.map key).Nodup) (ha : a ∈ l) :
    ∃ before after, l = before ++ a :: after ∧ (∀ b ∈ before, key b ≠ key a) ∧
      ∀ b ∈ after, key b ≠ key a := by
  obtain ⟨before, after, rfl⟩ := List.append_of_mem ha
  rw [List.map_append, List.map_cons, List.nodup_append, List.nodup_cons] at hkeys
  obtain ⟨-, ⟨hbehind, -⟩, hfront⟩ := hkeys
  refine ⟨before, after, rfl, ?_, ?_⟩
  · intro b hb
    exact hfront (key b) (List.mem_map_of_mem hb) (key a) List.mem_cons_self
  · intro b hb hsame
    exact hbehind (List.mem_map.mpr ⟨b, hb, hsame⟩)

namespace Keyed

variable {s : Tables} (hk : s.Keyed)

include hk

theorem team_eq {t t' : Team} (ht : t ∈ s.teams) (ht' : t' ∈ s.teams) (hid : t.id = t'.id) :
    t = t' :=
  List.inj_on_of_nodup_map hk.teams ht ht' hid

theorem member_eq {m m' : Member} (hm : m ∈ s.members) (hm' : m' ∈ s.members)
    (hteam : m.teamId = m'.teamId) (huser : m.userId = m'.userId) : m = m' :=
  List.inj_on_of_nodup_map hk.members hm hm' (Prod.ext hteam huser)

theorem invitation_eq {i i' : Invitation} (hi : i ∈ s.invitations) (hi' : i' ∈ s.invitations)
    (hid : i.id = i'.id) : i = i' :=
  List.inj_on_of_nodup_map hk.invitations hi hi' hid

theorem invitation_eq_of_token {i i' : Invitation} (hi : i ∈ s.invitations)
    (hi' : i' ∈ s.invitations) (hhash : i.tokenHash = i'.tokenHash) : i = i' :=
  List.inj_on_of_nodup_map hk.tokens hi hi' hhash

theorem findInvitation_of_mem {i : Invitation} (hi : i ∈ s.invitations) :
    s.findInvitation i.id = some i := by
  cases hfound : s.findInvitation i.id with
  | none =>
    have := List.find?_eq_none.mp hfound i hi
    simp at this
  | some i' =>
    obtain ⟨hi', hid⟩ := findInvitation_some hfound
    rw [hk.invitation_eq hi' hi hid]

theorem findInvitationByToken_of_mem {i : Invitation} (hi : i ∈ s.invitations) :
    s.findInvitationByToken i.tokenHash = some i := by
  cases hfound : s.findInvitationByToken i.tokenHash with
  | none =>
    have := List.find?_eq_none.mp hfound i hi
    simp at this
  | some i' =>
    obtain ⟨hi', hhash⟩ := findInvitationByToken_some hfound
    rw [hk.invitation_eq_of_token hi' hi hhash]

theorem findMember_of_mem {m : Member} (hm : m ∈ s.members) :
    s.findMember m.teamId m.userId = some m := by
  cases hfound : s.findMember m.teamId m.userId with
  | none =>
    have := List.find?_eq_none.mp hfound m hm
    simp [Member.isOf] at this
  | some m' =>
    obtain ⟨hm', hteam, huser⟩ := findMember_some hfound
    rw [hk.member_eq hm' hm hteam huser]

end Keyed

/-! ## Writes -/

section

variable {s s' : Tables}

/-- Keys are about the rows and the last ids only. -/
theorem Keyed.of_eq (hk : s.Keyed) (hteams : s'.teams = s.teams)
    (hmembers : s'.members = s.members) (hinvitations : s'.invitations = s.invitations)
    (hteam : s'.lastTeamId = s.lastTeamId) (hinvitation : s'.lastInvitationId = s.lastInvitationId) :
    s'.Keyed where
  teams := hteams ▸ hk.teams
  members := hmembers ▸ hk.members
  invitations := hinvitations ▸ hk.invitations
  tokens := hinvitations ▸ hk.tokens
  teams_le := by
    rw [hteams, hteam]
    exact hk.teams_le
  invitations_le := by
    rw [hinvitations, hinvitation]
    exact hk.invitations_le

/-- Changing teams in place, each with its id kept, keeps the keys. -/
theorem Keyed.map_teams (hk : s.Keyed) {f : Team → Team} (hid : ∀ t ∈ s.teams, (f t).id = t.id) :
    Keyed { s with teams := s.teams.map f } where
  teams := by
    have hmap : (s.teams.map f).map (·.id) = s.teams.map (·.id) := by
      rw [List.map_map]
      exact List.map_congr_left hid
    exact hmap ▸ hk.teams
  members := hk.members
  invitations := hk.invitations
  tokens := hk.tokens
  teams_le := by
    intro t ht
    obtain ⟨u, hu, rfl⟩ := List.mem_map.mp ht
    rw [hid u hu]
    exact hk.teams_le u hu
  invitations_le := hk.invitations_le

/-- Invitations changed in place, each with its offer kept, have the same digests. -/
theorem map_tokenHash_of_offer {f : Invitation → Invitation}
    (hoffer : ∀ i ∈ s.invitations, (f i).offer = i.offer) :
    (s.invitations.map f).map (·.tokenHash) = s.invitations.map (·.tokenHash) := by
  rw [List.map_map]
  refine List.map_congr_left ?_
  intro i hi
  obtain ⟨-, -, -, -, hhash, -⟩ := Invitation.offer_eq (hoffer i hi)
  exact hhash

/-- Changing invitations in place, each with its offer kept, keeps the keys. -/
theorem Keyed.map_invitations (hk : s.Keyed) {f : Invitation → Invitation}
    (hoffer : ∀ i ∈ s.invitations, (f i).offer = i.offer) :
    Keyed { s with invitations := s.invitations.map f } where
  teams := hk.teams
  members := hk.members
  invitations := by
    have hmap : (s.invitations.map f).map (·.id) = s.invitations.map (·.id) := by
      rw [List.map_map]
      exact List.map_congr_left fun i hi => (Invitation.offer_eq (hoffer i hi)).1
    exact hmap ▸ hk.invitations
  tokens := map_tokenHash_of_offer hoffer ▸ hk.tokens
  teams_le := hk.teams_le
  invitations_le := by
    intro i hi
    obtain ⟨j, hj, rfl⟩ := List.mem_map.mp hi
    rw [(Invitation.offer_eq (hoffer j hj)).1]
    exact hk.invitations_le j hj

/-- A row under the next id keeps ids apart and below the last one. -/
theorem nodup_append_next {α : Type} {key : α → Int} {rows : List α} {last : Int} (row : α)
    (hnodup : (rows.map key).Nodup) (hle : ∀ a ∈ rows, key a ≤ last) (hrow : key row = last + 1) :
    ((rows ++ [row]).map key).Nodup ∧ ∀ a ∈ rows ++ [row], key a ≤ last + 1 := by
  constructor
  · rw [List.map_append, List.nodup_append]
    refine ⟨hnodup, List.nodup_singleton _, ?_⟩
    rintro a ha b hb rfl
    obtain ⟨other, hother, rfl⟩ := List.mem_map.mp ha
    have hbound := hle other hother
    have heq : key other = key row := List.mem_singleton.mp hb
    omega
  · intro a ha
    rcases List.mem_append.mp ha with ha | ha
    · have hbound := hle a ha
      omega
    · rw [List.mem_singleton.mp ha]
      omega

theorem createTeam_keyed {draft : TeamDraft} {team : Team}
    (h : s.createTeam draft = .ok (team, s')) (hk : s.Keyed) : s'.Keyed := by
  obtain ⟨-, rfl, rfl⟩ := createTeam_ok h
  obtain ⟨hnodup, hle⟩ :=
    nodup_append_next (draft.team (s.lastTeamId + 1)) hk.teams hk.teams_le rfl
  exact ⟨hnodup, hk.members, hk.invitations, hk.tokens, hle, hk.invitations_le⟩

theorem createTeam_evolves {draft : TeamDraft} {team : Team}
    (h : s.createTeam draft = .ok (team, s')) : s.Evolves s' := by
  obtain ⟨-, rfl, rfl⟩ := createTeam_ok h
  constructor
  · intro t ht
    exact ⟨t, List.mem_append_left _ ht, rfl, rfl, rfl, fun _ => rfl⟩
  · intro i hi
    exact ⟨i, hi, rfl, fun _ => rfl⟩

theorem updateTeam_keyed {team reply : Team} (h : s.updateTeam team = .ok (reply, s'))
    (hk : s.Keyed) : s'.Keyed := by
  obtain ⟨-, -, -, rfl⟩ := updateTeam_ok h
  refine hk.map_teams ?_
  intro t _
  split
  · rename_i hid
    exact hid.symm
  · rfl

/-- An update that keeps owner and date only touches an active team. -/
theorem updateTeam_evolves {team reply : Team} (h : s.updateTeam team = .ok (reply, s'))
    (hk : s.Keyed)
    (hsame : ∀ t ∈ s.teams, t.id = team.id → team.ownerId = t.ownerId ∧
      team.createdAt = t.createdAt) : s.Evolves s' := by
  obtain ⟨⟨before, hbefore⟩, -, -, rfl⟩ := updateTeam_ok h
  obtain ⟨hmem, hbid, hactive⟩ := findTeam_some hbefore
  refine ⟨fun t ht => ⟨_, List.mem_map_of_mem ht, ?_⟩, fun i hi => ⟨i, hi, rfl, fun _ => rfl⟩⟩
  by_cases hid : t.id = team.id
  · obtain ⟨howner, hdate⟩ := hsame t ht hid
    rw [if_pos hid]
    refine ⟨hid.symm, howner, hdate, ?_⟩
    intro hdeleted
    -- the row under this id is the active one
    have heq := hk.team_eq ht hmem (hid.trans hbid.symm)
    rw [heq, hactive] at hdeleted
    cases hdeleted
  · rw [if_neg hid]
    exact ⟨rfl, rfl, rfl, fun _ => rfl⟩

theorem deleteTeam_keyed {team : Int} {now : Instant} {reply : Unit}
    (h : s.deleteTeam team now = .ok (reply, s')) (hk : s.Keyed) : s'.Keyed := by
  obtain ⟨-, rfl⟩ := deleteTeam_ok h
  refine hk.map_teams ?_
  intro t _
  split <;> rfl

theorem deleteTeam_evolves {team : Int} {now : Instant} {reply : Unit}
    (h : s.deleteTeam team now = .ok (reply, s')) (hk : s.Keyed) : s.Evolves s' := by
  obtain ⟨⟨before, hbefore⟩, rfl⟩ := deleteTeam_ok h
  obtain ⟨hmem, hbid, hactive⟩ := findTeam_some hbefore
  refine ⟨fun t ht => ⟨_, List.mem_map_of_mem ht, ?_⟩, fun i hi => ⟨i, hi, rfl, fun _ => rfl⟩⟩
  by_cases hid : t.id = team
  · rw [if_pos hid]
    refine ⟨rfl, rfl, rfl, ?_⟩
    intro hdeleted
    have heq := hk.team_eq ht hmem (hid.trans hbid.symm)
    rw [heq, hactive] at hdeleted
    cases hdeleted
  · rw [if_neg hid]
    exact ⟨rfl, rfl, rfl, fun _ => rfl⟩

theorem addMember_keyed {draft : MemberDraft} {member : Member}
    (h : s.addMember draft = .ok (member, s')) (hk : s.Keyed) : s'.Keyed := by
  obtain ⟨hnew, rfl, hperm, heq⟩ := addMember_ok h
  rw [heq]
  refine ⟨hk.teams, ?_, hk.invitations, hk.tokens, hk.teams_le, hk.invitations_le⟩
  rw [(hperm.map _).nodup_iff, List.map_cons, List.nodup_cons]
  refine ⟨?_, hk.members⟩
  intro hmem
  obtain ⟨m, hm, hkey⟩ := List.mem_map.mp hmem
  -- a member under the same key would have been found by the store
  have hmember := isMember_iff.mpr ⟨m, hm, congrArg Prod.fst hkey, congrArg Prod.snd hkey⟩
  rw [show s.isMember draft.member.teamId draft.member.userId = false from hnew] at hmember
  cases hmember

theorem setRole_keyed {team user : Int} {role : Role} {now : Instant} {changed : Member}
    (h : s.setRole team user role now = .ok (changed, s')) (hk : s.Keyed) : s'.Keyed := by
  obtain ⟨member, hfound, rfl, rfl⟩ := setRole_ok h
  obtain ⟨-, hteam, huser⟩ := findMember_some hfound
  refine ⟨hk.teams, ?_, hk.invitations, hk.tokens, hk.teams_le, hk.invitations_le⟩
  have hmap : (s.members.map fun m =>
        if m.isOf team user then { member with role, updatedAt := now } else m).map
        (fun m => (m.teamId, m.userId)) = s.members.map fun m => (m.teamId, m.userId) := by
    rw [List.map_map]
    refine List.map_congr_left ?_
    intro m _
    by_cases hm : m.isOf team user = true
    · obtain ⟨hmteam, hmuser⟩ := Member.isOf_iff.mp hm
      simp only [Function.comp_apply, if_pos hm, hteam, huser, hmteam, hmuser]
    · simp only [Function.comp_apply, if_neg hm]
  exact hmap ▸ hk.members

theorem removeMember_keyed {team user : Int} {reply : Unit}
    (h : s.removeMember team user = .ok (reply, s')) (hk : s.Keyed) : s'.Keyed := by
  obtain ⟨-, rfl⟩ := removeMember_ok h
  refine ⟨hk.teams, ?_, hk.invitations, hk.tokens, hk.teams_le, hk.invitations_le⟩
  exact (List.filter_sublist.map _).nodup hk.members

theorem createInvitation_keyed {draft : InvitationDraft} {invitation : Invitation}
    (h : s.createInvitation draft = .ok (invitation, s')) (hk : s.Keyed) : s'.Keyed := by
  obtain ⟨hhash, -, rfl, rfl⟩ := createInvitation_ok h
  obtain ⟨hnodup, hle⟩ := nodup_append_next (draft.invitation (s.lastInvitationId + 1))
    hk.invitations hk.invitations_le rfl
  -- the store has looked for the digest before
  refine ⟨hk.teams, hk.members, hnodup, ?_, hk.teams_le, hle⟩
  rw [List.map_append, List.nodup_append]
  refine ⟨hk.tokens, List.nodup_singleton _, ?_⟩
  rintro a ha b hb rfl
  obtain ⟨i, hi, rfl⟩ := List.mem_map.mp ha
  have hnone := List.find?_eq_none.mp hhash i hi
  exact hnone (decide_eq_true (List.mem_singleton.mp hb))

theorem createInvitation_evolves {draft : InvitationDraft} {invitation : Invitation}
    (h : s.createInvitation draft = .ok (invitation, s')) : s.Evolves s' := by
  obtain ⟨-, -, rfl, rfl⟩ := createInvitation_ok h
  refine ⟨fun t ht => ⟨t, ht, rfl, rfl, rfl, fun _ => rfl⟩, ?_⟩
  intro i hi
  exact ⟨i, List.mem_append_left _ hi, rfl, fun _ => rfl⟩

/-- A settlement changes invitations in place, each with its offer kept. -/
theorem settleInvitation_offers {id : Int} {status : InvitationStatus} {now : Instant}
    {settled : Invitation} (h : s.settleInvitation id status now = .ok (some settled, s'))
    (hk : s.Keyed) : ∃ f : Invitation → Invitation,
      s' = { s with invitations := s.invitations.map f } ∧
        ∀ i ∈ s.invitations, (f i).offer = i.offer := by
  obtain ⟨found, hfound, -, rfl, rfl⟩ := settleInvitation_ok h
  obtain ⟨hmem, hid⟩ := findInvitation_some hfound
  refine ⟨_, rfl, ?_⟩
  intro i hi
  split
  · rename_i hi'
    rw [hk.invitation_eq hi hmem (hi'.trans hid.symm)]
    rfl
  · rfl

theorem settleInvitation_keyed {id : Int} {status : InvitationStatus} {now : Instant}
    {settled : Invitation} (h : s.settleInvitation id status now = .ok (some settled, s'))
    (hk : s.Keyed) : s'.Keyed := by
  obtain ⟨f, rfl, hoffers⟩ := settleInvitation_offers h hk
  exact hk.map_invitations hoffers

theorem settleInvitation_evolves {id : Int} {status : InvitationStatus} {now : Instant}
    {settled : Invitation} (h : s.settleInvitation id status now = .ok (some settled, s'))
    (hk : s.Keyed) : s.Evolves s' := by
  obtain ⟨found, hfound, hpending, rfl, rfl⟩ := settleInvitation_ok h
  obtain ⟨hmem, hid⟩ := findInvitation_some hfound
  refine ⟨fun t ht => ⟨t, ht, rfl, rfl, rfl, fun _ => rfl⟩,
    fun i hi => ⟨_, List.mem_map_of_mem hi, ?_⟩⟩
  by_cases hi' : i.id = id
  · -- the settled row was pending, so it was not final
    have heq := hk.invitation_eq hi hmem (hi'.trans hid.symm)
    subst heq
    rw [if_pos hi']
    exact ⟨rfl, fun hst => absurd (hpending.symm.trans hst) (by decide)⟩
  · rw [if_neg hi']
    exact ⟨rfl, fun _ => rfl⟩

/-- A pending invitation is settled, if settling works. -/
theorem settleInvitation_pending (hworking : s.failSettling = false) (hk : s.Keyed)
    {i : Invitation} (hi : i ∈ s.invitations) (hpending : i.isPending = true)
    (status : InvitationStatus) (now : Instant) :
    ∃ s', s.settleInvitation i.id status now = .ok (some (i.settle status now), s') := by
  simp only [settleInvitation, hworking, hk.findInvitation_of_mem hi, hpending, if_true]
  exact ⟨_, rfl⟩

theorem settleAll_offers {p : Invitation → Bool} {status : InvitationStatus} {count : Nat}
    (h : s.settleAll p status = (count, s')) : ∃ f : Invitation → Invitation,
      s' = { s with invitations := s.invitations.map f } ∧
        ∀ i ∈ s.invitations, (f i).offer = i.offer := by
  obtain ⟨-, rfl⟩ := settleAll_eq h
  refine ⟨_, rfl, ?_⟩
  intro i _
  split <;> rfl

theorem settleAll_keyed {p : Invitation → Bool} {status : InvitationStatus} {count : Nat}
    (h : s.settleAll p status = (count, s')) (hk : s.Keyed) : s'.Keyed := by
  obtain ⟨f, rfl, hoffers⟩ := settleAll_offers h
  exact hk.map_invitations hoffers

theorem settleAll_evolves {p : Invitation → Bool} {status : InvitationStatus} {count : Nat}
    (h : s.settleAll p status = (count, s')) : s.Evolves s' := by
  obtain ⟨-, rfl⟩ := settleAll_eq h
  refine ⟨fun t ht => ⟨t, ht, rfl, rfl, rfl, fun _ => rfl⟩,
    fun i hi => ⟨_, List.mem_map_of_mem hi, ?_⟩⟩
  by_cases hp : (i.isPending && p i) = true
  · rw [if_pos hp]
    refine ⟨rfl, ?_⟩
    intro hst
    rw [hst] at hp
    cases hp
  · rw [if_neg hp]
    exact ⟨rfl, fun _ => rfl⟩

/-- Every call keeps the keys. -/
theorem perform_keyed {α : Type} {call : StoreCall α} {reply : α}
    (h : s.perform call = .ok (reply, s')) (hk : s.Keyed) : s'.Keyed := by
  cases call with
  | createTeam draft => exact createTeam_keyed h hk
  | updateTeam team => exact updateTeam_keyed h hk
  | deleteTeam team now => exact deleteTeam_keyed h hk
  | addMember draft => exact addMember_keyed h hk
  | setRole team user role now => exact setRole_keyed h hk
  | removeMember team user => exact removeMember_keyed h hk
  | createInvitation draft => exact createInvitation_keyed h hk
  | settleInvitation id status now =>
    cases reply with
    | none => exact settleInvitation_none h ▸ hk
    | some settled => exact settleInvitation_keyed h hk
  | revokePending team => exact settleAll_keyed (Except.ok.inj h) hk
  | expireStale team now => exact settleAll_keyed (Except.ok.inj h) hk
  | _ =>
    cases h
    exact hk

end

end Tables

end Roster
