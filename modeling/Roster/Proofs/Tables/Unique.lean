import Roster.Proofs.Tables.Keyed

/-!
# What holds of tables whatever they are asked

No rule of the library is used here: the calls come in any order, with any
arguments, and an update may bring any record.

* `Tables.pendingFor`, `Tables.activeUnder` — the candidates of the two look-ups
  that expect one row at most;
* `Tables.Regular` — there is one at most, invitations are dated by their
  acceptance, and the tables are keyed;
* `Tables.Keeps` — what no call takes back: a team keeps its id and is final once
  deleted, an invitation keeps its offer and is final once settled;
* `Tables.perform_regular`, `Tables.perform_keeps` — both, for every call.

`Tables.Evolves` says more of a team, but an update with any record may give it to
another owner.
-/

namespace Roster

namespace Tables

/-- How many pending invitations of a team there are for an address. -/
def pendingFor (s : Tables) (team : Int) (email : String) : Nat :=
  s.invitations.countP fun i => i.teamId = team && i.isPending && i.email = email

/-- How many active teams of an owner have a slug. -/
def activeUnder (s : Tables) (owner : Int) (slug : String) : Nat :=
  s.teams.countP fun t => t.isActive && t.ownerId = owner && t.slug = slug

/-- Keys, no rival rows, and dates of acceptance where there was one. -/
structure Regular (s : Tables) : Prop where
  keyed : s.Keyed
  pending : ∀ team email, s.pendingFor team email ≤ 1
  active : ∀ owner slug, s.activeUnder owner slug ≤ 1
  dated : ∀ i ∈ s.invitations, i.acceptedAt.isSome = true ↔ i.status = .accepted

/-- What stays when tables change by any calls. -/
structure Keeps (s s' : Tables) : Prop where
  teams : ∀ t ∈ s.teams, ∃ t' ∈ s'.teams, t'.id = t.id ∧ (t.status = .deleted → t' = t)
  invitations : ∀ i ∈ s.invitations, ∃ i' ∈ s'.invitations, i'.offer = i.offer ∧
    (i.isPending = false → i' = i)

theorem empty_regular : empty.Regular where
  keyed := empty_keyed
  pending := fun _ _ => Nat.zero_le 1
  active := fun _ _ => Nat.zero_le 1
  dated := fun _ hi => absurd hi List.not_mem_nil

variable {s s' : Tables}

/-- Regularity is about the rows and the last ids only. -/
theorem Regular.of_eq (h : s.Regular) (hteams : s'.teams = s.teams)
    (hmembers : s'.members = s.members) (hinvitations : s'.invitations = s.invitations)
    (hteam : s'.lastTeamId = s.lastTeamId)
    (hinvitation : s'.lastInvitationId = s.lastInvitationId) : s'.Regular where
  keyed := h.keyed.of_eq hteams hmembers hinvitations hteam hinvitation
  pending := by
    simp only [pendingFor, hinvitations]
    exact h.pending
  active := by
    simp only [activeUnder, hteams]
    exact h.active
  dated := by
    rw [hinvitations]
    exact h.dated

/-- Tables with the same teams and invitations keep each other's rows. -/
theorem Keeps.of_eq (hteams : s'.teams = s.teams) (hinvitations : s'.invitations = s.invitations) :
    s.Keeps s' where
  teams := fun t ht => ⟨t, hteams ▸ ht, rfl, fun _ => rfl⟩
  invitations := fun i hi => ⟨i, hinvitations ▸ hi, rfl, fun _ => rfl⟩

theorem Keeps.refl (s : Tables) : s.Keeps s :=
  .of_eq rfl rfl

theorem Keeps.trans {s₁ s₂ s₃ : Tables} (h₁ : s₁.Keeps s₂) (h₂ : s₂.Keeps s₃) : s₁.Keeps s₃ where
  teams := by
    intro t ht
    obtain ⟨t', ht', hid, hdeleted⟩ := h₁.teams t ht
    obtain ⟨t'', ht'', hid', hdeleted'⟩ := h₂.teams t' ht'
    refine ⟨t'', ht'', hid'.trans hid, ?_⟩
    intro hst
    -- a deleted row passes both changes unchanged
    have heq := hdeleted hst
    exact (hdeleted' (heq ▸ hst)).trans heq
  invitations := by
    intro i hi
    obtain ⟨i', hi', hoffer, hfinal⟩ := h₁.invitations i hi
    obtain ⟨i'', hi'', hoffer', hfinal'⟩ := h₂.invitations i' hi'
    refine ⟨i'', hi'', hoffer'.trans hoffer, ?_⟩
    intro hst
    have heq := hfinal hst
    exact (hfinal' (heq ▸ hst)).trans heq

/-- Tables that evolve keep all that is to be kept. -/
theorem Evolves.keeps (h : s.Evolves s') : s.Keeps s' where
  teams := by
    intro t ht
    obtain ⟨t', ht', hid, -, -, hdeleted⟩ := h.teams t ht
    exact ⟨t', ht', hid, hdeleted⟩
  invitations := h.invitations

/-! ## What regularity says of the look-ups -/

/-- The look-up by slug gives the only active team there is. -/
theorem Regular.findTeamBySlug_of_mem (h : s.Regular) {t : Team} (ht : t ∈ s.teams)
    (hactive : t.isActive = true) : s.findTeamBySlug t.ownerId t.slug = some t := by
  have hcandidate : t ∈ s.teams.filter fun u =>
      u.isActive && u.ownerId = t.ownerId && u.slug = t.slug :=
    List.mem_filter.mpr ⟨ht, by simp [hactive]⟩
  have hone := h.active t.ownerId t.slug
  rw [activeUnder, List.countP_eq_length_filter] at hone
  rw [findTeamBySlug, ← List.head?_filter]
  -- a list of one entry at most has no other first entry
  obtain ⟨u, hu⟩ := List.length_eq_one_iff.mp
    (Nat.le_antisymm hone (List.length_pos_of_mem hcandidate))
  rw [hu] at hcandidate ⊢
  rw [List.mem_singleton.mp hcandidate]
  rfl

/-! ## Teams -/

/-- A slug is free if the only active team that has it is the one excepted. -/
theorem slugInUse_false {owner : Int} {slug : String} {except : Option Int} :
    s.slugInUse owner slug except = false ↔
      ∀ t ∈ s.teams, (t.isActive && t.ownerId = owner && t.slug = slug) = true →
        some t.id = except := by
  simp [slugInUse]

theorem createTeam_regular {draft : TeamDraft} {team : Team}
    (h : s.createTeam draft = .ok (team, s')) (hr : s.Regular) : s'.Regular := by
  have hkeyed := createTeam_keyed h hr.keyed
  obtain ⟨hfree, rfl, rfl⟩ := createTeam_ok h
  refine ⟨hkeyed, hr.pending, ?_, hr.dated⟩
  intro owner slug
  have hold := hr.active owner slug
  rw [activeUnder] at hold ⊢
  rw [List.countP_append, List.countP_singleton]
  split
  · rename_i hnew
    -- the store has looked for a rival of the new row
    simp only [Bool.and_eq_true, decide_eq_true_eq] at hnew
    obtain ⟨⟨-, rfl⟩, rfl⟩ := hnew
    have hnone : s.teams.countP (fun t => t.isActive &&
        t.ownerId = (draft.team (s.lastTeamId + 1)).ownerId &&
        t.slug = (draft.team (s.lastTeamId + 1)).slug) = 0 := by
      refine List.countP_eq_zero.mpr ?_
      intro t ht hrival
      cases slugInUse_false.mp hfree t ht hrival
    exact Nat.add_le_add_right (Nat.le_of_eq hnone) 1
  · exact hold

/-- A new team has an id that no row has, and a larger one. -/
theorem Keyed.createTeam_above (hk : s.Keyed) {draft : TeamDraft} {team : Team}
    (h : s.createTeam draft = .ok (team, s')) : ∀ t ∈ s.teams, t.id < team.id := by
  obtain ⟨-, rfl, -⟩ := createTeam_ok h
  intro t ht
  exact Int.lt_add_one_of_le (hk.teams_le t ht)

/-- There is one team of an id. -/
theorem Keyed.countP_team_le (hk : s.Keyed) (team : Int) :
    s.teams.countP (fun t => t.id = team) ≤ 1 := by
  have hcount := List.nodup_iff_count_le_one.mp hk.teams team
  rw [List.count, List.countP_map] at hcount
  refine Nat.le_trans (List.countP_mono_left ?_) hcount
  intro t _ hid
  exact beq_iff_eq.mpr (of_decide_eq_true hid)

theorem updateTeam_regular {team reply : Team} (h : s.updateTeam team = .ok (reply, s'))
    (hr : s.Regular) : s'.Regular := by
  have hkeyed := updateTeam_keyed h hr.keyed
  obtain ⟨-, hfree, -, rfl⟩ := updateTeam_ok h
  refine ⟨hkeyed, hr.pending, ?_, hr.dated⟩
  intro owner slug
  rw [activeUnder, List.countP_map]
  by_cases hnew : (team.isActive && team.ownerId = owner && team.slug = slug) = true
  · -- what the record brings was free, so its own row is the only candidate
    refine Nat.le_trans (List.countP_mono_left ?_) (hr.keyed.countP_team_le team.id)
    intro t ht hcandidate
    refine decide_eq_true ?_
    by_contra hid
    simp only [Function.comp_apply, if_neg hid] at hcandidate
    simp only [Bool.and_eq_true, decide_eq_true_eq] at hnew
    obtain ⟨⟨-, rfl⟩, rfl⟩ := hnew
    exact hid (Option.some.inj (slugInUse_false.mp hfree t ht hcandidate))
  · -- the record is no candidate, and the other rows are as they were
    refine Nat.le_trans (List.countP_mono_left ?_) (hr.active owner slug)
    intro t _ hcandidate
    simp only [Function.comp_apply] at hcandidate
    split at hcandidate
    · exact absurd hcandidate hnew
    · exact hcandidate

/-- An update with any record touches no deleted team. -/
theorem updateTeam_keeps {team reply : Team} (h : s.updateTeam team = .ok (reply, s'))
    (hk : s.Keyed) : s.Keeps s' := by
  obtain ⟨⟨before, hfound⟩, -, -, rfl⟩ := updateTeam_ok h
  obtain ⟨hmem, hbefore, hactive⟩ := findTeam_some hfound
  refine ⟨fun t ht => ⟨_, List.mem_map_of_mem ht, ?_⟩, fun i hi => ⟨i, hi, rfl, fun _ => rfl⟩⟩
  by_cases hid : t.id = team.id
  · rw [if_pos hid]
    refine ⟨hid.symm, ?_⟩
    intro hdeleted
    -- the row under this id is the active one
    rw [hk.team_eq ht hmem (hid.trans hbefore.symm), hactive] at hdeleted
    cases hdeleted
  · rw [if_neg hid]
    exact ⟨rfl, fun _ => rfl⟩

theorem deleteTeam_regular {team : Int} {now : Instant} {reply : Unit}
    (h : s.deleteTeam team now = .ok (reply, s')) (hr : s.Regular) : s'.Regular := by
  have hkeyed := deleteTeam_keyed h hr.keyed
  obtain ⟨-, rfl⟩ := deleteTeam_ok h
  refine ⟨hkeyed, hr.pending, ?_, hr.dated⟩
  intro owner slug
  rw [activeUnder, List.countP_map]
  refine Nat.le_trans (List.countP_mono_left ?_) (hr.active owner slug)
  intro t _ hcandidate
  simp only [Function.comp_apply] at hcandidate
  split at hcandidate
  · cases hcandidate
  · exact hcandidate

/-! ## Invitations -/

theorem createInvitation_regular {draft : InvitationDraft} {invitation : Invitation}
    (h : s.createInvitation draft = .ok (invitation, s')) (hr : s.Regular) : s'.Regular := by
  have hkeyed := createInvitation_keyed h hr.keyed
  obtain ⟨-, hfree, rfl, rfl⟩ := createInvitation_ok h
  refine ⟨hkeyed, ?_, hr.active, ?_⟩
  · intro team email
    have hold := hr.pending team email
    rw [pendingFor] at hold ⊢
    rw [List.countP_append, List.countP_singleton]
    split
    · rename_i hnew
      -- the store has looked for a rival of the new row
      simp only [Bool.and_eq_true, decide_eq_true_eq] at hnew
      obtain ⟨⟨rfl, -⟩, rfl⟩ := hnew
      have hnone := List.countP_eq_zero.mpr (List.find?_eq_none.mp hfree)
      exact Nat.add_le_add_right (Nat.le_of_eq hnone) 1
    · exact hold
  · intro i hi
    rcases List.mem_append.mp hi with hi | hi
    · exact hr.dated i hi
    · rw [List.mem_singleton.mp hi]
      exact ⟨fun hsome => absurd hsome Bool.false_ne_true, fun hst => by cases hst⟩

/-- A row that stays as it is, or one that was pending and keeps its offer, dated if it
is accepted. -/
def Settling (i i' : Invitation) : Prop :=
  i' = i ∨ i.isPending = true ∧ i'.offer = i.offer ∧
    (i'.acceptedAt.isSome = true ↔ i'.status = .accepted)

theorem Settling.offer {i i' : Invitation} (h : Settling i i') : i'.offer = i.offer := by
  obtain rfl | ⟨-, hoffer, -⟩ := h
  · rfl
  · exact hoffer

theorem Settling.wasPending {i i' : Invitation} (h : Settling i i')
    (hpending : i'.isPending = true) : i.isPending = true := by
  obtain rfl | ⟨hwas, -, -⟩ := h
  · exact hpending
  · exact hwas

theorem Regular.map_settling (hr : s.Regular) {f : Invitation → Invitation}
    (hf : ∀ i ∈ s.invitations, Settling i (f i)) :
    Regular { s with invitations := s.invitations.map f } where
  keyed := hr.keyed.map_invitations fun i hi => (hf i hi).offer
  pending := by
    intro team email
    rw [pendingFor, List.countP_map]
    refine Nat.le_trans (List.countP_mono_left ?_) (hr.pending team email)
    intro i hi hcandidate
    obtain ⟨-, hteam, hemail, -⟩ := Invitation.offer_eq (hf i hi).offer
    simp only [Function.comp_apply, Bool.and_eq_true, decide_eq_true_eq, hteam, hemail]
      at hcandidate ⊢
    exact ⟨⟨hcandidate.1.1, (hf i hi).wasPending hcandidate.1.2⟩, hcandidate.2⟩
  active := hr.active
  dated := by
    intro i' hi'
    obtain ⟨i, hi, rfl⟩ := List.mem_map.mp hi'
    obtain heq | ⟨-, -, hdated⟩ := hf i hi
    · rw [heq]
      exact hr.dated i hi
    · exact hdated

/-- Whatever the status, `pending` included, a settlement settles. -/
theorem settleInvitation_settling {id : Int} {status : InvitationStatus} {now : Instant}
    {settled : Invitation} (h : s.settleInvitation id status now = .ok (some settled, s'))
    (hr : s.Regular) : ∃ f : Invitation → Invitation,
      s' = { s with invitations := s.invitations.map f } ∧
        ∀ i ∈ s.invitations, Settling i (f i) := by
  obtain ⟨found, hfound, hpending, rfl, rfl⟩ := settleInvitation_ok h
  obtain ⟨hmem, hid⟩ := findInvitation_some hfound
  refine ⟨_, rfl, ?_⟩
  intro i hi
  split
  · rename_i hi'
    right
    rw [hr.keyed.invitation_eq hi hmem (hi'.trans hid.symm)]
    refine ⟨hpending, rfl, ?_⟩
    by_cases haccepted : status = .accepted
    · simp [Invitation.settle, haccepted]
    · -- a pending row has no date yet
      have hundated : found.acceptedAt = none := by
        have hdated := hr.dated found hmem
        rw [Invitation.isPending_iff.mp hpending] at hdated
        simpa using hdated
      simp [Invitation.settle, haccepted, hundated]
  · exact .inl rfl

theorem settleAll_settling {p : Invitation → Bool} {status : InvitationStatus} {count : Nat}
    (h : s.settleAll p status = (count, s')) (hstatus : status ≠ .accepted) (hr : s.Regular) :
    ∃ f : Invitation → Invitation,
      s' = { s with invitations := s.invitations.map f } ∧
        ∀ i ∈ s.invitations, Settling i (f i) := by
  obtain ⟨-, rfl⟩ := settleAll_eq h
  refine ⟨_, rfl, ?_⟩
  intro i hi
  split
  · rename_i hmoves
    obtain ⟨hpending, -⟩ := Bool.and_eq_true_iff.mp hmoves
    have hundated : i.acceptedAt = none := by
      have hdated := hr.dated i hi
      rw [Invitation.isPending_iff.mp hpending] at hdated
      simpa using hdated
    exact .inr ⟨hpending, rfl, by simp [hundated, hstatus]⟩
  · exact .inl rfl

/-! ## Every call -/

/-- Every call, whatever its arguments, keeps tables regular. -/
theorem perform_regular {α : Type} {call : StoreCall α} {reply : α}
    (h : s.perform call = .ok (reply, s')) (hr : s.Regular) : s'.Regular := by
  cases call with
  | createTeam draft => exact createTeam_regular h hr
  | updateTeam team => exact updateTeam_regular h hr
  | deleteTeam team now => exact deleteTeam_regular h hr
  | addMember draft =>
    have hkeyed := addMember_keyed h hr.keyed
    obtain ⟨-, -, -, heq⟩ := addMember_ok h
    rw [heq] at hkeyed ⊢
    exact ⟨hkeyed, hr.pending, hr.active, hr.dated⟩
  | setRole team user role now =>
    have hkeyed := setRole_keyed h hr.keyed
    obtain ⟨_, -, -, rfl⟩ := setRole_ok h
    exact ⟨hkeyed, hr.pending, hr.active, hr.dated⟩
  | removeMember team user =>
    have hkeyed := removeMember_keyed h hr.keyed
    obtain ⟨-, rfl⟩ := removeMember_ok h
    exact ⟨hkeyed, hr.pending, hr.active, hr.dated⟩
  | createInvitation draft => exact createInvitation_regular h hr
  | settleInvitation id status now =>
    cases reply with
    | none => exact settleInvitation_none h ▸ hr
    | some settled =>
      obtain ⟨f, rfl, hf⟩ := settleInvitation_settling h hr
      exact hr.map_settling hf
  | revokePending team =>
    obtain ⟨f, rfl, hf⟩ := settleAll_settling (Except.ok.inj h) (by decide) hr
    exact hr.map_settling hf
  | expireStale team now =>
    obtain ⟨f, rfl, hf⟩ := settleAll_settling (Except.ok.inj h) (by decide) hr
    exact hr.map_settling hf
  | _ =>
    cases h
    exact hr

/-- Every call, whatever its arguments, keeps what is to be kept. -/
theorem perform_keeps {α : Type} {call : StoreCall α} {reply : α}
    (h : s.perform call = .ok (reply, s')) (hk : s.Keyed) : s.Keeps s' := by
  cases call with
  | createTeam draft => exact (createTeam_evolves h).keeps
  | updateTeam team => exact updateTeam_keeps h hk
  | deleteTeam team now => exact (deleteTeam_evolves h hk).keeps
  | addMember draft =>
    obtain ⟨-, -, -, heq⟩ := addMember_ok h
    rw [heq]
    exact .of_eq rfl rfl
  | setRole team user role now =>
    obtain ⟨_, -, -, rfl⟩ := setRole_ok h
    exact .of_eq rfl rfl
  | removeMember team user =>
    obtain ⟨-, rfl⟩ := removeMember_ok h
    exact .of_eq rfl rfl
  | createInvitation draft => exact (createInvitation_evolves h).keeps
  | settleInvitation id status now =>
    cases reply with
    | none => exact settleInvitation_none h ▸ .refl s
    | some settled => exact (settleInvitation_evolves h hk).keeps
  | revokePending team => exact (settleAll_evolves (Except.ok.inj h)).keeps
  | expireStale team now => exact (settleAll_evolves (Except.ok.inj h)).keeps
  | _ =>
    cases h
    exact .refl s

end Tables

end Roster
