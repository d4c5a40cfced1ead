import Roster.Proofs.Tables.Balance
import Roster.Proofs.Tables.Keyed
import Roster.Proofs.Time.Order
import Roster.Store.Database.Basic

/-!
# A database that mirrors tables

* `Database.of` — the database with the rows of the records that the tables
  hold;
* `StoreCall.Fits` — what the tables must be like for both stores to answer a
  call alike: the guards that only one of them has do not matter, and the
  instants that are compared have years of four digits;
* `Database.perform_of` — a call that fits gives the same result and the same
  log lines, and leaves the mirror of the tables that it leaves.
-/

namespace Roster

/-- The rows of the records of the tables. -/
def Database.of (s : Tables) : Database :=
  { users := s.users
    teams := s.teams.map TeamRow.of
    members := s.members.map MemberRow.of
    invitations := s.invitations.map InvitationRow.of
    lastUserId := s.lastUserId
    lastTeamId := s.lastTeamId
    lastInvitationId := s.lastInvitationId }

/-- The outcome with the mirror of the tables. -/
def Outcome.mirror {α : Type} (outcome : Outcome Tables α) : Outcome Database α :=
  ⟨outcome.result, outcome.log, .of outcome.store⟩

/-- The tables on which both stores answer a call alike. -/
def StoreCall.Fits (s : Tables) : {α : Type} → StoreCall α → Prop
  | _, .createTeam draft => draft.memberLimit ≠ 0
  | _, .listTeamsOf _ _ => ∀ t ∈ s.teams, t.createdAt.InFourDigits
  | _, .updateTeam team => team.memberLimit ≠ 0 ∧ ∀ before, s.findTeam team.id = some before →
    before.ownerId = team.ownerId ∧ before.status = team.status ∧ before.createdAt = team.createdAt
  | _, .deleteTeam _ _ => s.Keyed
  | _, .addMember draft => ∃ t ∈ s.teams, t.id = draft.teamId
  | _, .listMembers _ | _, .listProfiles _ => ∀ m ∈ s.members, m.joinedAt.InFourDigits
  | _, .countMembers team => s.membersOf team ≤ maxCount
  | _, .createInvitation draft => s.findPendingInvitation draft.teamId draft.email = none ∧
    ∃ t ∈ s.teams, t.id = draft.teamId
  | _, .listInvitationsOf _ _ _ | _, .listInvitationsTo _ _ _ =>
    ∀ i ∈ s.invitations, i.createdAt.InFourDigits
  | _, .settleInvitation _ _ _ => s.failSettling = false
  | _, .expireStale _ now => now.InFourDigits ∧ ∀ i ∈ s.invitations, i.expiresAt.InFourDigits
  | _, _ => True

/-! ## Columns -/

theorem TeamRow.isActive_of (team : Team) : (of team).isActive = team.isActive := by
  unfold isActive Team.isActive of
  cases team.status <;> rfl

theorem InvitationRow.isPending_of (invitation : Invitation) :
    (of invitation).isPending = invitation.isPending := by
  unfold isPending Invitation.isPending of
  cases invitation.status <;> rfl

theorem InvitationStatus.name_inj {status status' : InvitationStatus} :
    status.name = status'.name ↔ status = status' := by
  constructor
  · intro h
    have hread := status.ofName_name
    rw [h, status'.ofName_name] at hread
    exact (Option.some.inj hread).symm
  · exact congrArg name

namespace Database

/-! ## Rows of records -/

section

variable {α β ρ : Type} {read : ρ → Except TeamError β} {row : α → ρ}

/-- Reading written records in order. -/
theorem readAll_map {value : α → β} (hread : ∀ a, read (row a) = .ok (value a)) (l : List α) :
    readAll read (l.map row) = .ok (l.map value) := by
  induction l with
  | nil => rfl
  | cons a rest ih =>
    simp only [List.map_cons, readAll, hread, ih, bind, Except.bind, pure, Except.pure]

variable {read : ρ → Except TeamError α} {p : ρ → Bool} {q : α → Bool}

/-- Looking among written records. -/
theorem readFound_find? (hread : ∀ a, read (row a) = .ok a) (hp : ∀ a, p (row a) = q a)
    (l : List α) : readFound read ((l.map row).find? p) = .ok (l.find? q) := by
  rw [List.find?_map, show p ∘ row = q from funext hp]
  cases l.find? q with
  | none => rfl
  | some a => simp only [Option.map_some, readFound, hread, Except.map]

/-- Selecting and sorting written records. -/
theorem filter_mergeSort_map {before : ρ → ρ → Bool} {earlier : α → α → Bool} {l : List α}
    (hp : ∀ a, p (row a) = q a)
    (hbefore : ∀ a ∈ l, ∀ b ∈ l, before (row a) (row b) = earlier a b) :
    ((l.map row).filter p).mergeSort before = ((l.filter q).mergeSort earlier).map row := by
  rw [List.filter_map, show p ∘ row = q from funext hp, List.map_mergeSort]
  intro a ha b hb
  exact (hbefore a (List.mem_of_mem_filter ha) b (List.mem_of_mem_filter hb)).symm

theorem insertBefore_map {before : ρ → ρ → Bool} {earlier : α → α → Bool} {entry : α}
    (hbefore : ∀ a, before (row entry) (row a) = earlier entry a) (l : List α) :
    insertBefore before (row entry) (l.map row) = (insertBefore earlier entry l).map row := by
  induction l with
  | nil => rfl
  | cons head tail ih =>
    simp only [List.map_cons, insertBefore, hbefore, ih, apply_ite (List.map row)]

end

/-! ## Orders -/

/-- Newer by text is newer by instant. -/
theorem newer_eq {a b : Instant} (ha : a.InFourDigits) (hb : b.InFourDigits) (i j : Int) :
    newer a b i j = (decide (b < a) || decide (a = b) && decide (j ≤ i)) := by
  simp only [newer, textBefore, Instant.storedText_lt_iff hb ha, Instant.storedText_inj]

variable (s : Tables)

theorem slugInUse_of (owner : Int) (slug : String) (except : Option Int) :
    (of s).slugInUse owner slug except = s.slugInUse owner slug except := by
  simp only [slugInUse, Tables.slugInUse, of, List.any_map, Function.comp_def, TeamRow.isActive_of]
  rfl

theorem activeTeam_of (team : Int) :
    (of s).activeTeam team = (s.findTeam team).map TeamRow.of := by
  simp only [activeTeam, Tables.findTeam, of, List.find?_map, Function.comp_def,
    TeamRow.isActive_of]
  rfl

theorem memberRow_of (team user : Int) :
    (of s).memberRow team user = (s.findMember team user).map MemberRow.of := by
  simp only [memberRow, Tables.findMember, of, List.find?_map]
  rfl

theorem hasTeam_of {team : Int} (h : ∃ t ∈ s.teams, t.id = team) : (of s).hasTeam team = true := by
  obtain ⟨t, ht, rfl⟩ := h
  simp only [hasTeam, of, List.any_map, List.any_eq_true, Function.comp_apply, decide_eq_true_eq]
  exact ⟨t, ht, rfl⟩

theorem membersOf_of (hdates : ∀ m ∈ s.members, m.joinedAt.InFourDigits) (team : Int) :
    (of s).membersOf team = (s.listMembers team).map MemberRow.of := by
  apply filter_mergeSort_map
  · exact fun _ => rfl
  · intro a ha b hb
    simp only [earlierMember, Tables.earlierMember, textBefore, MemberRow.of,
      Instant.storedText_lt_iff (hdates a ha) (hdates b hb), Instant.storedText_inj]
    rfl

/-! ## Calls -/

variable {s} {α : Type}

/-- A call that succeeds leaves the mirror of the tables that it leaves. -/
theorem mirror_ok {call : StoreCall α} {reply : α} {s' : Tables}
    (h : s.perform call = .ok (reply, s')) :
    (Store.perform call s).mirror = (of s').answer (.ok reply) := by
  rw [Tables.perform_eq, h]
  rfl

/-- A call that fails leaves the mirror as it was. -/
theorem mirror_error {call : StoreCall α} {e : TeamError} (h : s.perform call = .error e) :
    (Store.perform call s).mirror = (of s).refuse e := by
  rw [Tables.perform_eq, h]
  rfl

theorem createTeam_of {draft : TeamDraft} (hlimit : draft.memberLimit ≠ 0) :
    (of s).createTeam draft = (Store.perform (.createTeam draft) s).mirror := by
  rw [createTeam, if_neg hlimit, slugInUse_of]
  by_cases hslug : s.slugInUse draft.ownerId draft.slug none = true
  · rw [if_pos hslug, mirror_error (show s.perform (.createTeam draft) = _ from if_pos hslug)]
  · have hwritten : s.perform (.createTeam draft) = .ok (draft.team (s.lastTeamId + 1), { s with
        teams := s.teams ++ [draft.team (s.lastTeamId + 1)], lastTeamId := s.lastTeamId + 1 }) :=
      if_neg hslug
    rw [if_neg hslug, mirror_ok hwritten, ← TeamRow.read_of]
    simp only [of, List.map_append]
    rfl

/-- Putting the row of a team in its place. -/
theorem putTeam_of (team : Team) :
    (of s).putTeam (.of team) =
      of { s with teams := s.teams.map fun t => if t.id = team.id then team else t } := by
  simp only [putTeam, of, List.map_map, Function.comp_def, apply_ite TeamRow.of]
  rfl

theorem updateTeam_of {team : Team} (hlimit : team.memberLimit ≠ 0)
    (hkept : ∀ before, s.findTeam team.id = some before →
      before.ownerId = team.ownerId ∧ before.status = team.status ∧
        before.createdAt = team.createdAt) :
    (of s).updateTeam team = (Store.perform (.updateTeam team) s).mirror := by
  rw [updateTeam, activeTeam_of]
  cases hfound : s.findTeam team.id with
  | none =>
    rw [mirror_error]
    · rfl
    · show s.updateTeam team = _
      rw [Tables.updateTeam, hfound]
      rfl
  | some before =>
    obtain ⟨howner, hstatus, hcreated⟩ := hkept before hfound
    obtain ⟨-, hid, -⟩ := Tables.findTeam_some hfound
    -- the columns that the statement leaves alone are those of the new record
    have hrow : ({ TeamRow.of before with
          name := team.name
          slug := team.slug
          description := team.description
          visibility := team.visibility.name
          memberLimit := team.memberLimit.toNat
          updatedAt := team.updatedAt } : TeamRow) = .of team := by
      simp only [TeamRow.of, hid, howner, hstatus, hcreated]
    have howner' : (TeamRow.of before).ownerId = team.ownerId := howner
    simp only [Option.map_some, if_neg hlimit]
    rw [hrow, howner', slugInUse_of, putTeam_of, TeamRow.read_of]
    by_cases hslug : s.slugInUse team.ownerId team.slug (some team.id) = true
    · rw [if_pos hslug, mirror_error]
      show s.updateTeam team = _
      rw [Tables.updateTeam, hfound]
      exact if_pos hslug
    · rw [if_neg hslug, mirror_ok]
      show s.updateTeam team = _
      rw [Tables.updateTeam, hfound]
      exact if_neg hslug

theorem deleteTeam_of (hk : s.Keyed) (team : Int) (now : Instant) :
    (of s).deleteTeam team now = (Store.perform (.deleteTeam team now) s).mirror := by
  rw [deleteTeam, activeTeam_of]
  cases hfound : s.findTeam team with
  | none =>
    rw [mirror_error]
    · rfl
    · show s.deleteTeam team now = _
      rw [Tables.deleteTeam, hfound]
      rfl
  | some before =>
    obtain ⟨hmem, hid, -⟩ := Tables.findTeam_some hfound
    have hwritten : s.perform (.deleteTeam team now) = .ok ((), { s with
        teams := s.teams.map fun t => if t.id = team then t.markDeleted now else t }) := by
      show s.deleteTeam team now = _
      rw [Tables.deleteTeam, hfound]
      rfl
    -- only one record has the id
    have hsame : s.teams.map (fun t => if t.id = team then t.markDeleted now else t) =
        s.teams.map fun t => if t.id = team then before.markDeleted now else t := by
      refine List.map_congr_left ?_
      intro t ht
      by_cases h : t.id = team
      · rw [if_pos h, if_pos h, hk.team_eq ht hmem (h.trans hid.symm)]
      · rw [if_neg h, if_neg h]
    rw [mirror_ok hwritten, hsame]
    have hput := putTeam_of (s := s) (before.markDeleted now)
    rw [show (before.markDeleted now).id = team from hid] at hput
    rw [← hput]
    rfl

theorem addMember_of {draft : MemberDraft} (hteam : ∃ t ∈ s.teams, t.id = draft.teamId) :
    (of s).addMember draft = (Store.perform (.addMember draft) s).mirror := by
  have hmember : ((of s).memberRow draft.teamId draft.userId).isSome =
      s.isMember draft.teamId draft.userId := by
    rw [memberRow_of, Option.isSome_map, Tables.isSome_findMember]
  rw [addMember, hmember, hasTeam_of s hteam]
  by_cases hold : s.isMember draft.teamId draft.userId = true
  · rw [if_pos hold, mirror_error (show s.perform (.addMember draft) = _ from if_pos hold)]
  · rw [if_neg hold, mirror_ok (show s.perform (.addMember draft) = _ from if_neg hold)]
    simp only [Bool.not_true, Bool.false_eq_true, if_false, MemberRow.read_of]
    have hplace : insertBefore (fun a b => keyBefore a.teamId a.userId b.teamId b.userId)
          (MemberRow.of draft.member) (s.members.map MemberRow.of) =
        (insertBefore (fun a b => keyBefore a.teamId a.userId b.teamId b.userId)
          draft.member s.members).map MemberRow.of := by
      apply insertBefore_map
      exact fun _ => rfl
    simp only [of, hplace]

theorem setRole_of (team user : Int) (role : Role) (now : Instant) :
    (of s).setRole team user role now = (Store.perform (.setRole team user role now) s).mirror := by
  rw [setRole, memberRow_of]
  cases hfound : s.findMember team user with
  | none =>
    rw [mirror_error]
    · rfl
    · show s.setRole team user role now = _
      rw [Tables.setRole, hfound]
  | some member =>
    have hwritten : s.perform (.setRole team user role now) =
        .ok ({ member with role, updatedAt := now }, { s with
          members := s.members.map fun m =>
            if m.isOf team user then { member with role, updatedAt := now } else m }) := by
      show s.setRole team user role now = _
      rw [Tables.setRole, hfound]
    rw [mirror_ok hwritten, ← MemberRow.read_of]
    simp only [of, List.map_map, Function.comp_def, apply_ite MemberRow.of]
    rfl

theorem removeMember_of (team user : Int) :
    (of s).removeMember team user = (Store.perform (.removeMember team user) s).mirror := by
  have hmember := s.isSome_findMember team user
  rw [removeMember, memberRow_of]
  cases hfound : s.findMember team user with
  | none =>
    rw [hfound] at hmember
    rw [mirror_error]
    · rfl
    · show s.removeMember team user = _
      rw [Tables.removeMember, ← hmember]
      rfl
  | some member =>
    rw [hfound] at hmember
    rw [mirror_ok (show s.perform (.removeMember team user) = _ from if_pos hmember.symm)]
    simp only [of, List.filter_map]
    rfl

/-- Looking for a pending invitation. -/
theorem any_isPending_of (team : Int) (email : String) :
    ((of s).invitations.any fun i => i.teamId = team && i.isPending && i.email = email) =
      (s.findPendingInvitation team email).isSome := by
  simp only [of, List.any_map, Function.comp_def, InvitationRow.isPending_of]
  exact List.isSome_find?.symm

theorem any_tokenHash_of (hash : String) :
    ((of s).invitations.any fun i => i.tokenHash = hash) =
      (s.findInvitationByToken hash).isSome := by
  simp only [of, List.any_map]
  exact List.isSome_find?.symm

theorem createInvitation_of {draft : InvitationDraft}
    (hnone : s.findPendingInvitation draft.teamId draft.email = none)
    (hteam : ∃ t ∈ s.teams, t.id = draft.teamId) :
    (of s).createInvitation draft = (Store.perform (.createInvitation draft) s).mirror := by
  have hpending : (s.findPendingInvitation draft.teamId draft.email).isSome = false := by
    rw [hnone]
    rfl
  rw [createInvitation, any_isPending_of, any_tokenHash_of, hasTeam_of s hteam,
    if_neg (Bool.not_eq_true _ ▸ hpending)]
  by_cases hhash : (s.findInvitationByToken draft.tokenHash).isSome = true
  · rw [if_pos hhash, mirror_error (show s.perform (.createInvitation draft) = _ from if_pos hhash)]
  · have hnew := Tables.createInvitation_new draft (by simpa using hhash) hpending
    rw [if_neg hhash, mirror_ok (show s.perform (.createInvitation draft) = _ from hnew),
      ← InvitationRow.read_of]
    simp only [of, List.map_append]
    rfl

theorem settleInvitation_of (hworks : s.failSettling = false) (invitation : Int)
    (status : InvitationStatus) (now : Instant) :
    (of s).settleInvitation invitation status now =
      (Store.perform (.settleInvitation invitation status now) s).mirror := by
  have hrow : (of s).invitations.find? (fun i => i.id = invitation) =
      (s.findInvitation invitation).map InvitationRow.of := by
    simp only [of, List.find?_map]
    rfl
  rw [settleInvitation, hrow]
  cases hfound : s.findInvitation invitation with
  | none =>
    rw [mirror_error]
    · rfl
    · show s.settleInvitation invitation status now = _
      rw [Tables.settleInvitation, hworks, hfound]
      rfl
  | some found =>
    by_cases hpending : found.isPending = true
    · have hwritten : s.perform (.settleInvitation invitation status now) =
          .ok (some (found.settle status now), { s with
            invitations := s.invitations.map fun i =>
              if i.id = invitation then found.settle status now else i }) := by
        show s.settleInvitation invitation status now = _
        rw [Tables.settleInvitation, hworks, hfound]
        exact if_pos hpending
      simp only [Option.map_some, InvitationRow.isPending_of, if_pos hpending]
      rw [mirror_ok hwritten]
      -- the statement writes the columns of the settled record
      have hread : Except.map some (InvitationRow.of (found.settle status now)).read =
          .ok (some (found.settle status now)) := by
        rw [InvitationRow.read_of]
        rfl
      rw [← hread]
      simp only [of, List.map_map, Function.comp_def, apply_ite InvitationRow.of]
      rfl
    · have hlate : s.perform (.settleInvitation invitation status now) = .ok (none, s) := by
        show s.settleInvitation invitation status now = _
        rw [Tables.settleInvitation, hworks, hfound]
        exact if_neg hpending
      simp only [Option.map_some, InvitationRow.isPending_of, if_neg hpending]
      rw [mirror_ok hlate]
      rfl

/-- Settling all that are selected alike. -/
theorem settleAll_of {p : InvitationRow → Bool} {q : Invitation → Bool}
    (hp : ∀ i ∈ s.invitations, p (.of i) = q i) (status : InvitationStatus) :
    (of s).settleAll p status =
      (of (s.settleAll q status).2).done (s.settleAll q status).1 := by
  have hmoves : ∀ i ∈ s.invitations, ((InvitationRow.of i).isPending && p (.of i)) =
      (i.isPending && q i) := by
    intro i hi
    rw [InvitationRow.isPending_of, hp i hi]
  have hcount : (s.invitations.map InvitationRow.of).countP (fun i => i.isPending && p i) =
      s.invitations.countP fun i => i.isPending && q i := by
    rw [List.countP_map]
    exact List.countP_congr fun i hi => by rw [Function.comp_apply, hmoves i hi]
  have hrows : (s.invitations.map InvitationRow.of).map
        (fun i => if (i.isPending && p i) = true then { i with status := status.name } else i) =
      (s.invitations.map fun i =>
        if (i.isPending && q i) = true then { i with status } else i).map InvitationRow.of := by
    simp only [List.map_map]
    refine List.map_congr_left ?_
    intro i hi
    simp only [Function.comp_apply, hmoves i hi, apply_ite InvitationRow.of]
    rfl
  simp only [settleAll, Tables.settleAll, of, hcount, hrows]

/-! ## Listings -/

theorem listTeamsOf_of (hdates : ∀ t ∈ s.teams, t.createdAt.InFourDigits) (user : Int)
    (page : Page) : (of s).listTeamsOf user page = .ok (s.listTeamsOf user page) := by
  have hrows : ((of s).teams.filter fun t =>
        t.isActive && (of s).members.any (·.isOf t.id user)).mergeSort
          (fun a b => newer a.createdAt b.createdAt a.id b.id) =
      ((s.teams.filter fun t => t.isActive && s.isMember t.id user).mergeSort
        Tables.newerTeam).map TeamRow.of := by
    apply filter_mergeSort_map
    · intro t
      simp only [of, List.any_map, Function.comp_def, TeamRow.isActive_of]
      rfl
    · intro a ha b hb
      exact newer_eq (hdates a ha) (hdates b hb) a.id b.id
  rw [listTeamsOf, hrows, Page.slice_map]
  exact (readAll_map TeamRow.read_of _).trans (congrArg Except.ok (List.map_id _))

theorem listMembers_of (hdates : ∀ m ∈ s.members, m.joinedAt.InFourDigits) (team : Int) :
    readAll MemberRow.read ((of s).membersOf team) = .ok (s.listMembers team) := by
  rw [membersOf_of s hdates]
  exact (readAll_map MemberRow.read_of _).trans (congrArg Except.ok (List.map_id _))

theorem listProfiles_of (hdates : ∀ m ∈ s.members, m.joinedAt.InFourDigits) (team : Int) :
    (of s).listProfiles team = .ok (s.listProfiles team) := by
  -- the joined rows are those of the joined records
  have hjoined : (((of s).membersOf team).filterMap fun m =>
        ((of s).findUser m.userId).map fun u => (m, u)) =
      ((s.listMembers team).filterMap fun m =>
        (s.findUser m.userId).map fun u => (m, u)).map fun (m, u) => (MemberRow.of m, u) := by
    rw [membersOf_of s hdates, List.filterMap_map, List.map_filterMap]
    refine List.filterMap_congr ?_
    intro m _
    simp only [Function.comp_apply, Option.map_map]
    rfl
  have hread : ∀ entry : Member × User,
      (MemberRow.of entry.1).read.map (fun m => MemberProfile.mk m entry.2.email entry.2.name) =
        .ok ⟨entry.1, entry.2.email, entry.2.name⟩ := by
    intro entry
    rw [MemberRow.read_of]
    rfl
  rw [listProfiles, hjoined]
  refine (readAll_map hread _).trans ?_
  rw [List.map_filterMap, Tables.listProfiles]
  simp only [Option.map_map, Function.comp_def]

theorem countMembers_of {team : Int} (hmax : s.membersOf team ≤ maxCount) :
    (of s).countMembers team = .ok (s.countMembers team) := by
  have hcount : (of s).members.countP (fun m => m.teamId = team) = s.membersOf team := by
    simp only [of, List.countP_map]
    rfl
  rw [countMembers, hcount, if_pos hmax, Tables.countMembers]
  exact congrArg (fun count => Except.ok (UInt32.ofNat count)) (Nat.min_eq_left hmax).symm

theorem listInvitations_of (hdates : ∀ i ∈ s.invitations, i.createdAt.InFourDigits)
    {p : InvitationRow → Bool} {q : Invitation → Bool} (hp : ∀ i, p (.of i) = q i)
    (status : Option InvitationStatus) (page : Page) :
    (of s).listInvitations p status page = .ok (s.listInvitations q status page) := by
  have hrows : ((of s).invitations.filter fun i =>
        p i && status.all (i.status = ·.name)).mergeSort
          (fun a b => newer a.createdAt b.createdAt a.id b.id) =
      ((s.invitations.filter fun i => q i && status.all (i.status = ·)).mergeSort
        Tables.newerInvitation).map InvitationRow.of := by
    apply filter_mergeSort_map
    · intro i
      rw [hp]
      cases status with
      | none => rfl
      | some status =>
        simp only [Option.all_some, InvitationRow.of, InvitationStatus.name_inj]
    · intro a ha b hb
      exact newer_eq (hdates a ha) (hdates b hb) a.id b.id
  rw [listInvitations, hrows, Page.slice_map]
  exact (readAll_map InvitationRow.read_of _).trans (congrArg Except.ok (List.map_id _))

/-! ## The two stores -/

/-- A reading with the same reply. -/
theorem answer_of {call : StoreCall α} {reply : α} {result : Except TeamError α}
    (hreads : s.perform call = s.reading reply) (hresult : result = .ok reply) :
    (of s).answer result = (Store.perform call s).mirror := by
  rw [hresult, mirror_ok hreads]

/-- On tables that a call fits, the mirror answers it as the tables do, and mirrors the
tables that it leaves. -/
theorem perform_of {call : StoreCall α} (h : call.Fits s) :
    Store.perform call (of s) = (Store.perform call s).mirror := by
  show (of s).perform call = _
  cases call with
  | createTeam draft => exact createTeam_of h
  | findTeam team =>
    exact answer_of rfl (readFound_find? TeamRow.read_of
      (fun t => congrArg (decide (t.id = team) && ·) (TeamRow.isActive_of t)) s.teams)
  | findTeamBySlug owner slug =>
    exact answer_of rfl (readFound_find? TeamRow.read_of
      (fun t => congrArg (· && decide (t.ownerId = owner) && decide (t.slug = slug))
        (TeamRow.isActive_of t)) s.teams)
  | listTeamsOf user page => exact answer_of rfl (listTeamsOf_of h user page)
  | updateTeam team => exact updateTeam_of h.1 h.2
  | deleteTeam team now => exact deleteTeam_of h team now
  | addMember draft => exact addMember_of h
  | findMember team user =>
    exact answer_of rfl (readFound_find? MemberRow.read_of (fun _ => rfl) s.members)
  | listMembers team => exact answer_of rfl (listMembers_of h team)
  | listProfiles team => exact answer_of rfl (listProfiles_of h team)
  | setRole team user role now => exact setRole_of team user role now
  | removeMember team user => exact removeMember_of team user
  | countMembers team => exact answer_of rfl (countMembers_of h)
  | createInvitation draft => exact createInvitation_of h.1 h.2
  | findInvitation invitation =>
    exact answer_of rfl (readFound_find? InvitationRow.read_of (fun _ => rfl) s.invitations)
  | findInvitationByToken hash =>
    exact answer_of rfl (readFound_find? InvitationRow.read_of (fun _ => rfl) s.invitations)
  | findPendingInvitation team email =>
    exact answer_of rfl (readFound_find? InvitationRow.read_of
      (fun i => congrArg (decide (i.teamId = team) && · && decide (i.email = email))
        (InvitationRow.isPending_of i)) s.invitations)
  | listInvitationsOf team status page =>
    exact answer_of rfl (listInvitations_of h (fun _ => rfl) status page)
  | listInvitationsTo email status page =>
    exact answer_of rfl (listInvitations_of h (fun _ => rfl) status page)
  | settleInvitation invitation status now => exact settleInvitation_of h invitation status now
  | revokePending team => exact settleAll_of (fun _ _ => rfl) .revoked
  | expireStale team now =>
    refine settleAll_of ?_ .expired
    intro i hi
    -- the text of an expiry is compared with the text of the time
    have htext : textBefore i.expiresAt now = i.isExpiredAt now :=
      decide_eq_decide.mpr (Instant.storedText_lt_iff (h.2 i hi) h.1)
    exact congrArg (Tables.ofTeam team i && ·) htext

end Database

end Roster
