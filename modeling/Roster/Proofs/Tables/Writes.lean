import Mathlib.Data.List.Nodup
import Roster.Store.Tables

/-!
# What each write does to the tables

One lemma for each call that can change the tables: what held if it succeeded,
what it replied, and which tables it left. One lemma for each look-up says what
was found. Later proofs use these and do not open the calls.
-/

namespace Roster

/-- The team that a draft becomes under an id. -/
def TeamDraft.team (draft : TeamDraft) (id : Int) : Team :=
  { id
    ownerId := draft.ownerId
    name := draft.name
    slug := draft.slug
    description := draft.description
    visibility := draft.visibility
    memberLimit := draft.memberLimit
    status := .active
    createdAt := draft.createdAt
    updatedAt := draft.createdAt }

theorem Member.isOf_iff {member : Member} {team user : Int} :
    member.isOf team user = true ↔ member.teamId = team ∧ member.userId = user := by
  simp [isOf]

theorem Team.isActive_iff {team : Team} : team.isActive = true ↔ team.status = .active := by
  simp [isActive]

theorem Invitation.isPending_iff {invitation : Invitation} :
    invitation.isPending = true ↔ invitation.status = .pending := by
  simp [isPending]

namespace Tables

variable {s s' : Tables}

/-! ## Look-ups -/

theorem findTeam_some {id : Int} {team : Team} (h : s.findTeam id = some team) :
    team ∈ s.teams ∧ team.id = id ∧ team.status = .active := by
  have hpred := List.find?_some h
  simp only [Bool.and_eq_true, decide_eq_true_eq, Team.isActive_iff] at hpred
  exact ⟨List.mem_of_find?_eq_some h, hpred⟩

theorem findMember_some {team user : Int} {member : Member}
    (h : s.findMember team user = some member) :
    member ∈ s.members ∧ member.teamId = team ∧ member.userId = user := by
  have hpred := List.find?_some (p := fun m : Member => m.isOf team user) h
  exact ⟨List.mem_of_find?_eq_some h, Member.isOf_iff.mp hpred⟩

theorem findInvitation_some {id : Int} {invitation : Invitation}
    (h : s.findInvitation id = some invitation) :
    invitation ∈ s.invitations ∧ invitation.id = id := by
  have hpred := List.find?_some h
  exact ⟨List.mem_of_find?_eq_some h, of_decide_eq_true hpred⟩

theorem findInvitationByToken_some {hash : String} {invitation : Invitation}
    (h : s.findInvitationByToken hash = some invitation) :
    invitation ∈ s.invitations ∧ invitation.tokenHash = hash := by
  have hpred := List.find?_some h
  exact ⟨List.mem_of_find?_eq_some h, of_decide_eq_true hpred⟩

theorem isSome_findMember (s : Tables) (team user : Int) :
    (s.findMember team user).isSome = s.isMember team user := List.isSome_find?

theorem isMember_iff {team user : Int} :
    s.isMember team user = true ↔ ∃ m ∈ s.members, m.teamId = team ∧ m.userId = user := by
  simp [isMember, List.any_eq_true, Member.isOf_iff]

/-! ## Teams -/

theorem createTeam_ok {draft : TeamDraft} {team : Team} (h : s.createTeam draft = .ok (team, s')) :
    s.slugInUse draft.ownerId draft.slug none = false ∧ team = draft.team (s.lastTeamId + 1) ∧
      s' = { s with teams := s.teams ++ [team], lastTeamId := team.id } := by
  unfold createTeam at h
  split at h
  · cases h
  · rename_i hfree
    cases h
    exact ⟨by simpa using hfree, rfl, rfl⟩

theorem updateTeam_ok {team reply : Team} (h : s.updateTeam team = .ok (reply, s')) :
    (∃ before, s.findTeam team.id = some before) ∧
      s.slugInUse team.ownerId team.slug (some team.id) = false ∧ reply = team ∧
      s' = { s with teams := s.teams.map fun t => if t.id = team.id then team else t } := by
  unfold updateTeam at h
  split at h
  · cases h
  · rename_i hfound
    split at h
    · cases h
    · rename_i hfree
      cases h
      refine ⟨?_, by simpa using hfree, rfl, rfl⟩
      rw [Option.isNone_iff_eq_none] at hfound
      exact Option.ne_none_iff_exists'.mp hfound

theorem deleteTeam_ok {team : Int} {now : Instant} {reply : Unit}
    (h : s.deleteTeam team now = .ok (reply, s')) :
    (∃ before, s.findTeam team = some before) ∧
      s' = { s with teams := s.teams.map fun t => if t.id = team then t.markDeleted now else t } := by
  unfold deleteTeam at h
  split at h
  · cases h
  · rename_i hfound
    cases h
    rw [Option.isNone_iff_eq_none] at hfound
    exact ⟨Option.ne_none_iff_exists'.mp hfound, rfl⟩

/-! ## Members -/

/-- Where a new entry goes makes no difference to what is in the list. -/
theorem insertBefore_perm {α : Type} (before : α → α → Bool) (entry : α) (l : List α) :
    (insertBefore before entry l).Perm (entry :: l) := by
  induction l with
  | nil => exact .refl _
  | cons head tail ih =>
    unfold insertBefore
    split
    · exact .refl _
    · exact (ih.cons head).trans (.swap entry head tail)

theorem addMember_ok {draft : MemberDraft} {member : Member}
    (h : s.addMember draft = .ok (member, s')) :
    s.isMember draft.teamId draft.userId = false ∧ member = draft.member ∧
      s'.members.Perm (member :: s.members) ∧ s' = { s with members := s'.members } := by
  unfold addMember at h
  split at h
  · cases h
  · rename_i hnew
    cases h
    exact ⟨by simpa using hnew, rfl, insertBefore_perm _ _ _, rfl⟩

/-- Who is not a member yet is stored. -/
theorem addMember_new (draft : MemberDraft)
    (hnew : s.isMember draft.teamId draft.userId = false) :
    ∃ s', s.addMember draft = .ok (draft.member, s') := by
  rw [addMember, hnew]
  exact ⟨_, rfl⟩

theorem setRole_ok {team user : Int} {role : Role} {now : Instant} {changed : Member}
    (h : s.setRole team user role now = .ok (changed, s')) :
    ∃ member, s.findMember team user = some member ∧
      changed = { member with role, updatedAt := now } ∧
      s' = { s with members := s.members.map fun m => if m.isOf team user then changed else m } := by
  unfold setRole at h
  split at h
  · cases h
  · rename_i member hfound
    cases h
    exact ⟨member, hfound, rfl, rfl⟩

theorem removeMember_ok {team user : Int} {reply : Unit}
    (h : s.removeMember team user = .ok (reply, s')) :
    s.isMember team user = true ∧
      s' = { s with members := s.members.filter fun m => !m.isOf team user } := by
  unfold removeMember at h
  split at h
  · rename_i hmember
    cases h
    exact ⟨hmember, rfl⟩
  · cases h

/-! ## Invitations -/

theorem createInvitation_ok {draft : InvitationDraft} {invitation : Invitation}
    (h : s.createInvitation draft = .ok (invitation, s')) :
    s.findInvitationByToken draft.tokenHash = none ∧
      s.findPendingInvitation draft.teamId draft.email = none ∧
      invitation = draft.invitation (s.lastInvitationId + 1) ∧
      s' = { s with invitations := s.invitations ++ [invitation]
                    lastInvitationId := invitation.id } := by
  unfold createInvitation at h
  split at h
  · cases h
  · rename_i hhash
    split at h
    · cases h
    · rename_i hpending
      cases h
      simp only [Option.not_isSome_iff_eq_none] at hhash hpending
      exact ⟨hhash, hpending, rfl, rfl⟩

/-- Without an equal digest and an equal pending invitation, a draft is stored. -/
theorem createInvitation_new (draft : InvitationDraft)
    (hhash : (s.findInvitationByToken draft.tokenHash).isSome = false)
    (hpending : (s.findPendingInvitation draft.teamId draft.email).isSome = false) :
    s.createInvitation draft = .ok (draft.invitation (s.lastInvitationId + 1),
      { s with invitations := s.invitations ++ [draft.invitation (s.lastInvitationId + 1)]
               lastInvitationId := s.lastInvitationId + 1 }) := by
  simp only [createInvitation, hhash, hpending, Bool.false_eq_true, if_false]
  rfl

/-- A settlement that comes too late changes nothing. -/
theorem settleInvitation_none {id : Int} {status : InvitationStatus} {now : Instant}
    (h : s.settleInvitation id status now = .ok (none, s')) : s' = s := by
  unfold settleInvitation at h
  split at h
  · cases h
  · split at h
    · cases h
    · split at h
      · cases h
      · cases h
        rfl

theorem settleInvitation_ok {id : Int} {status : InvitationStatus} {now : Instant}
    {settled : Invitation} (h : s.settleInvitation id status now = .ok (some settled, s')) :
    ∃ found, s.findInvitation id = some found ∧ found.isPending = true ∧
      settled = found.settle status now ∧
      s' = { s with invitations := s.invitations.map fun i => if i.id = id then settled else i } := by
  unfold settleInvitation at h
  split at h
  · cases h
  · split at h
    · cases h
    · rename_i found hfound
      split at h
      · rename_i hpending
        cases h
        exact ⟨found, hfound, hpending, rfl, rfl⟩
      · cases h

theorem settleAll_eq {p : Invitation → Bool} {status : InvitationStatus} {count : Nat}
    (h : s.settleAll p status = (count, s')) :
    count = s.invitations.countP (fun i => i.isPending && p i) ∧
      s' = { s with
        invitations := s.invitations.map fun i =>
          if (i.isPending && p i) = true then { i with status } else i } := by
  cases h
  exact ⟨rfl, rfl⟩

/-! ## What no call changes -/

/-- Users are not inserted by calls, and calls do not decide whether settling fails. -/
theorem perform_frame {α : Type} {call : StoreCall α} {reply : α}
    (h : s.perform call = .ok (reply, s')) :
    s'.users = s.users ∧ s'.failSettling = s.failSettling := by
  cases call with
  | createTeam draft =>
    obtain ⟨-, -, rfl⟩ := createTeam_ok h
    exact ⟨rfl, rfl⟩
  | updateTeam team =>
    obtain ⟨-, -, -, rfl⟩ := updateTeam_ok h
    exact ⟨rfl, rfl⟩
  | deleteTeam team now =>
    obtain ⟨-, rfl⟩ := deleteTeam_ok h
    exact ⟨rfl, rfl⟩
  | addMember draft =>
    obtain ⟨-, -, -, hs⟩ := addMember_ok h
    rw [hs]
    exact ⟨rfl, rfl⟩
  | setRole team user role now =>
    obtain ⟨_, -, -, rfl⟩ := setRole_ok h
    exact ⟨rfl, rfl⟩
  | removeMember team user =>
    obtain ⟨-, rfl⟩ := removeMember_ok h
    exact ⟨rfl, rfl⟩
  | createInvitation draft =>
    obtain ⟨-, -, -, rfl⟩ := createInvitation_ok h
    exact ⟨rfl, rfl⟩
  | settleInvitation id status now =>
    cases reply with
    | none =>
      obtain rfl := settleInvitation_none h
      exact ⟨rfl, rfl⟩
    | some settled =>
      obtain ⟨_, -, -, -, rfl⟩ := settleInvitation_ok h
      exact ⟨rfl, rfl⟩
  | revokePending team | expireStale team now =>
    cases h
    exact ⟨rfl, rfl⟩
  | _ =>
    cases h
    exact ⟨rfl, rfl⟩

end Tables

end Roster
