import Roster.Proofs.Tables.Keyed

/-!
# Members by the way they came

* `Tables.membersOf`, `Tables.admitted` — how many members a team has, and how
  many of its invitations were accepted;
* `Tables.excess` — the members that neither the founding of the team nor an
  acceptance accounts for;
* one lemma for each write: what it does to the excess.
-/

namespace Roster

/-! ## Counts in changed lists -/

section

variable {α : Type} {l : List α} {p q : α → Bool} {a : α}

/-- What is left without the only entry that satisfies `q`. -/
theorem countP_without (hq : l.filter q = [a]) :
    (l.filter fun b => !q b).countP p + (if p a = true then 1 else 0) = l.countP p := by
  rw [List.countP_eq_countP_filter_add l p q, hq, List.countP_singleton, Nat.add_comm]

/-- What is there with another entry in place of the only one that satisfies
`q`. -/
theorem countP_replace {c : α} (hq : l.filter q = [a]) :
    (l.map fun b => if q b = true then c else b).countP p + (if p a = true then 1 else 0) =
      l.countP p + if p c = true then 1 else 0 := by
  -- the replacement leaves the other entries alone
  have hrest : (l.filter fun b => !q b).countP (p ∘ fun b => if q b = true then c else b) =
      (l.filter fun b => !q b).countP p := by
    refine List.countP_congr ?_
    intro b hb
    obtain ⟨-, hnot⟩ := List.mem_filter.mp hb
    have hqb : ¬ q b = true := by simpa using hnot
    simp only [Function.comp_apply, if_neg hqb]
  have hqa : q a = true := by
    have hmem : a ∈ l.filter q := hq ▸ List.mem_cons_self
    exact (List.mem_filter.mp hmem).2
  have hold := countP_without (p := p) hq
  rw [List.countP_map, List.countP_eq_countP_filter_add l _ q, hq, hrest, List.countP_singleton]
  simp only [Function.comp_apply, if_pos hqa]
  omega

/-- What is there with another entry in one place. -/
theorem countP_set_add {γ : Type _} {l : List γ} {p : γ → Bool} {i : Nat} {c : γ} (d : γ)
    (h : l[i]? = some c) :
    (l.set i d).countP p + (if p c = true then 1 else 0) =
      l.countP p + if p d = true then 1 else 0 := by
  induction l generalizing i with
  | nil => cases h
  | cons head tail ih =>
    cases i with
    | zero =>
      obtain rfl : head = c := Option.some.inj h
      simp only [List.set_cons_zero, List.countP_cons]
      omega
    | succ i =>
      have htail := ih (i := i) h
      simp only [List.set_cons_succ, List.countP_cons]
      omega

end

namespace Tables

/-- How many members a team has. -/
def membersOf (s : Tables) (team : Int) : Nat :=
  s.members.countP fun m => m.teamId = team

/-- How many invitations to a team were accepted. -/
def admitted (s : Tables) (team : Int) : Nat :=
  s.invitations.countP fun i => i.teamId = team && i.status = .accepted

/-- The members of a team beyond its founder and those who accepted an
invitation; below zero if members left. -/
def excess (s : Tables) (team : Int) : Int :=
  s.membersOf team - s.teams.countP (fun t => t.id = team) - s.admitted team

variable {s s' : Tables} (team : Int)

/-- The excess is about rows only. -/
theorem excess_congr (hteams : s'.teams = s.teams) (hmembers : s'.members = s.members)
    (hinvitations : s'.invitations = s.invitations) : s'.excess team = s.excess team := by
  simp only [excess, membersOf, admitted, hteams, hmembers, hinvitations]

theorem empty_excess : empty.excess team = 0 := rfl

theorem excess_createTeam {draft : TeamDraft} {created : Team}
    (h : s.createTeam draft = .ok (created, s')) :
    s'.excess team + (if created.id = team then 1 else 0) = s.excess team := by
  obtain ⟨-, -, rfl⟩ := createTeam_ok h
  simp only [excess, membersOf, admitted, List.countP_append, List.countP_singleton,
    decide_eq_true_eq]
  by_cases hid : created.id = team
  · simp only [if_pos hid]
    omega
  · simp only [if_neg hid]
    omega

/-- Changing teams in place, each with its id kept, keeps the excess. -/
theorem excess_map_teams {f : Team → Team} (hid : ∀ t ∈ s.teams, (f t).id = t.id) :
    excess { s with teams := s.teams.map f } team = s.excess team := by
  have hcount : (s.teams.map f).countP (fun t => t.id = team) =
      s.teams.countP fun t => t.id = team := by
    rw [List.countP_map]
    refine List.countP_congr ?_
    intro t ht
    simp only [Function.comp_apply, hid t ht]
  simp only [excess, membersOf, admitted, hcount]

theorem excess_updateTeam {updated reply : Team} (h : s.updateTeam updated = .ok (reply, s')) :
    s'.excess team = s.excess team := by
  obtain ⟨-, -, -, rfl⟩ := updateTeam_ok h
  refine excess_map_teams team ?_
  intro t _
  split
  · rename_i hid
    exact hid.symm
  · rfl

theorem excess_deleteTeam {deleted : Int} {now : Instant} {reply : Unit}
    (h : s.deleteTeam deleted now = .ok (reply, s')) : s'.excess team = s.excess team := by
  obtain ⟨-, rfl⟩ := deleteTeam_ok h
  refine excess_map_teams team ?_
  intro t _
  split <;> rfl

theorem membersOf_addMember {draft : MemberDraft} {member : Member}
    (h : s.addMember draft = .ok (member, s')) :
    s'.membersOf team = s.membersOf team + if member.teamId = team then 1 else 0 := by
  obtain ⟨-, -, hperm, -⟩ := addMember_ok h
  simp only [membersOf, hperm.countP_eq, List.countP_cons, decide_eq_true_eq]

theorem excess_addMember {draft : MemberDraft} {member : Member}
    (h : s.addMember draft = .ok (member, s')) :
    s'.excess team = s.excess team + if member.teamId = team then 1 else 0 := by
  have hcount := membersOf_addMember team h
  obtain ⟨-, -, -, heq⟩ := addMember_ok h
  have hteams : s'.teams = s.teams := by rw [heq]
  have hinvitations : s'.invitations = s.invitations := by rw [heq]
  simp only [excess, admitted, hteams, hinvitations, hcount]
  by_cases hteam : member.teamId = team
  · simp only [if_pos hteam]
    omega
  · simp only [if_neg hteam]
    omega

theorem membersOf_setRole {user : Int} {role : Role} {now : Instant} {changed : Member} {of_ : Int}
    (h : s.setRole of_ user role now = .ok (changed, s')) :
    s'.membersOf team = s.membersOf team := by
  obtain ⟨member, hfound, rfl, rfl⟩ := setRole_ok h
  obtain ⟨-, hteam, -⟩ := findMember_some hfound
  rw [membersOf, List.countP_map]
  refine List.countP_congr ?_
  intro m _
  by_cases hkey : m.isOf of_ user = true
  · obtain ⟨hmteam, -⟩ := Member.isOf_iff.mp hkey
    simp only [Function.comp_apply, if_pos hkey, hteam, hmteam]
  · simp only [Function.comp_apply, if_neg hkey]

theorem excess_setRole {user : Int} {role : Role} {now : Instant} {changed : Member} {of_ : Int}
    (h : s.setRole of_ user role now = .ok (changed, s')) : s'.excess team = s.excess team := by
  have hcount := membersOf_setRole team h
  obtain ⟨_, -, -, rfl⟩ := setRole_ok h
  simp only [excess, admitted, hcount]

theorem membersOf_removeMember_le {of_ user : Int} {reply : Unit}
    (h : s.removeMember of_ user = .ok (reply, s')) : s'.membersOf team ≤ s.membersOf team := by
  obtain ⟨-, rfl⟩ := removeMember_ok h
  exact List.filter_sublist.countP_le

theorem excess_removeMember (hk : s.Keyed) {of_ user : Int} {reply : Unit}
    (h : s.removeMember of_ user = .ok (reply, s')) :
    s'.excess team + (if of_ = team then 1 else 0) = s.excess team := by
  obtain ⟨hmember, rfl⟩ := removeMember_ok h
  obtain ⟨m, hm, rfl, rfl⟩ := isMember_iff.mp hmember
  have honly : s.members.filter (·.isOf m.teamId m.userId) = [m] := by
    refine filter_eq_singleton (List.Nodup.of_map _ hk.members) hm
      (Member.isOf_iff.mpr ⟨rfl, rfl⟩) fun m' hm' hkey => ?_
    obtain ⟨hteam, huser⟩ := Member.isOf_iff.mp hkey
    exact hk.member_eq hm' hm hteam huser
  have hcount := countP_without (p := fun m => m.teamId = team) honly
  simp only [decide_eq_true_eq] at hcount
  simp only [excess, membersOf, admitted, ← hcount]
  by_cases hteam : m.teamId = team
  · simp only [if_pos hteam]
    omega
  · simp only [if_neg hteam]
    omega

theorem excess_createInvitation {draft : InvitationDraft} {invitation : Invitation}
    (h : s.createInvitation draft = .ok (invitation, s')) : s'.excess team = s.excess team := by
  obtain ⟨-, -, hinvitation, rfl⟩ := createInvitation_ok h
  have hstatus : invitation.status ≠ .accepted := by
    rw [hinvitation]
    exact InvitationStatus.noConfusion
  simp [excess, membersOf, admitted, hstatus]

/-- A settlement takes one off the excess if it is an acceptance. -/
theorem excess_settle (hk : s.Keyed) {found : Invitation} {status : InvitationStatus}
    {now : Instant} {settled : Invitation} (hfound : found ∈ s.invitations)
    (h : s.settleInvitation found.id status now = .ok (some settled, s')) :
    s'.excess team + (if status = .accepted ∧ found.teamId = team then 1 else 0) =
      s.excess team := by
  obtain ⟨found', hfound', hpending, rfl, rfl⟩ := settleInvitation_ok h
  rw [hk.findInvitation_of_mem hfound] at hfound'
  obtain rfl := Option.some.inj hfound'
  have honly : s.invitations.filter (fun i => i.id = found.id) = [found] :=
    filter_eq_singleton (List.Nodup.of_map _ hk.invitations) hfound (decide_eq_true rfl)
      fun i hi hid => hk.invitation_eq hi hfound (of_decide_eq_true hid)
  have hcount := countP_replace (p := fun i => i.teamId = team && i.status = .accepted)
    (c := found.settle status now) honly
  rw [Invitation.isPending_iff] at hpending
  -- the row counted for nothing while it was pending
  have hbefore : ¬ (found.teamId = team && found.status = .accepted : Bool) = true := by
    simp [hpending]
  rw [if_neg hbefore, Nat.add_zero] at hcount
  simp only [decide_eq_true_eq] at hcount
  simp only [excess, membersOf, admitted, hcount]
  by_cases hadmits : status = .accepted ∧ found.teamId = team
  · have hafter : ((found.settle status now).teamId = team &&
        (found.settle status now).status = .accepted : Bool) = true := by
      simp [Invitation.settle, hadmits.1, hadmits.2]
    simp only [if_pos hafter, if_pos hadmits]
    omega
  · have hafter : ¬ ((found.settle status now).teamId = team &&
        (found.settle status now).status = .accepted : Bool) = true := by
      rw [Bool.and_eq_true, decide_eq_true_eq, decide_eq_true_eq]
      exact fun h => hadmits ⟨h.2, h.1⟩
    simp only [if_neg hafter, if_neg hadmits]
    omega

/-- Other settlements keep it. -/
theorem excess_settle_other (hk : s.Keyed) {id : Int} {status : InvitationStatus} {now : Instant}
    {settled : Invitation} (h : s.settleInvitation id status now = .ok (some settled, s'))
    (hstatus : status ≠ .accepted) : s'.excess team = s.excess team := by
  obtain ⟨found, hfound, -, -, -⟩ := settleInvitation_ok h
  obtain ⟨hmem, rfl⟩ := findInvitation_some hfound
  have hexcess := excess_settle team hk hmem h
  rw [if_neg fun hand => hstatus hand.1] at hexcess
  omega

theorem excess_settleAll {p : Invitation → Bool} {status : InvitationStatus} {count : Nat}
    (h : s.settleAll p status = (count, s')) (hstatus : status ≠ .accepted) :
    s'.excess team = s.excess team := by
  obtain ⟨-, rfl⟩ := settleAll_eq h
  have hcount : (s.invitations.map fun i =>
        if (i.isPending && p i) = true then { i with status } else i).countP
          (fun i => i.teamId = team && i.status = .accepted) =
      s.invitations.countP fun i => i.teamId = team && i.status = .accepted := by
    rw [List.countP_map]
    refine List.countP_congr ?_
    intro i _
    by_cases hmoves : (i.isPending && p i) = true
    · have hpending : i.status = .pending := by
        rw [Bool.and_eq_true, Invitation.isPending_iff] at hmoves
        exact hmoves.1
      simp only [Function.comp_apply, if_pos hmoves]
      simp [hstatus, hpending]
    · simp only [Function.comp_apply, if_neg hmoves]
  simp only [excess, membersOf, admitted, hcount]

end Tables

end Roster
