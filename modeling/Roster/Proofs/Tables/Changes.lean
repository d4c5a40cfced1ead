import Roster.Proofs.Tables.Keyed

/-!
# What changed between two states of the tables

* `Change` — an invitation came to another status, or a member came to a team;
* `Tables.moves`, `Tables.joins`, `Tables.changes` — the changes, found by
  comparing the rows before and after;
* one lemma for each kind of write: the changes that it makes.
-/

namespace Roster

/-- A change of the rows that calls race for. -/
inductive Change
  | moved (invitation : Int) (status : InvitationStatus)
  | joined (team user : Int)
deriving DecidableEq

/-- The invitation that a change moved. -/
def Change.moved? : Change → Option Int
  | .moved invitation _ => some invitation
  | .joined _ _ => none

namespace Tables

/-- The invitations that came to another status. -/
def moves (before after : Tables) : List Change :=
  before.invitations.filterMap fun i =>
    (after.findInvitation i.id).bind fun i' =>
      if i'.status = i.status then none else some (.moved i.id i'.status)

/-- The members whose key is new. -/
def joins (before after : Tables) : List Change :=
  (after.members.filter fun m => !before.isMember m.teamId m.userId).map fun m =>
    .joined m.teamId m.userId

/-- All that changed. -/
def changes (before after : Tables) : List Change :=
  before.moves after ++ before.joins after

variable {s s' : Tables}

/-! ## Moves -/

theorem moves_congr {r r' : Tables} (h : s.invitations = r.invitations)
    (h' : s'.invitations = r'.invitations) : s.moves s' = r.moves r' := by
  simp only [moves, findInvitation, h, h']

/-- Where every row is kept, nothing moved. -/
theorem moves_eq_nil (hk : s'.Keyed) (h : ∀ i ∈ s.invitations, i ∈ s'.invitations) :
    s.moves s' = [] := by
  refine List.filterMap_eq_nil_iff.mpr ?_
  intro i hi
  rw [hk.findInvitation_of_mem (h i hi)]
  exact if_pos rfl

/-- Where rows are changed in place, the moves are read off the change. -/
theorem moves_map (hk : s'.Keyed) {f : Invitation → Invitation}
    (hid : ∀ i ∈ s.invitations, (f i).id = i.id) (hs' : s'.invitations = s.invitations.map f) :
    s.moves s' = (s.invitations.filter fun i => (f i).status ≠ i.status).map fun i =>
      .moved i.id (f i).status := by
  rw [← List.filterMap_eq_map, List.filterMap_filter]
  refine List.filterMap_congr ?_
  intro i hi
  have hmem : f i ∈ s'.invitations := hs' ▸ List.mem_map_of_mem hi
  have hfound := hk.findInvitation_of_mem hmem
  rw [hid i hi] at hfound
  rw [hfound]
  by_cases hstatus : (f i).status = i.status
  · simp [hstatus]
  · simp [hstatus]

/-- A settlement moves the invitation that it is about. -/
theorem moves_settle (hk : s.Keyed) {id : Int} {status : InvitationStatus} {now : Instant}
    {settled : Invitation} (h : s.settleInvitation id status now = .ok (some settled, s'))
    (hstatus : status ≠ .pending) : s.moves s' = [.moved id status] := by
  have hk' := settleInvitation_keyed h hk
  obtain ⟨found, hfound, hpending, rfl, rfl⟩ := settleInvitation_ok h
  obtain ⟨hmem, rfl⟩ := findInvitation_some hfound
  have hid : ∀ i ∈ s.invitations,
      (if i.id = found.id then found.settle status now else i).id = i.id := by
    intro i _
    split
    · rename_i hi
      exact hi.symm
    · rfl
  -- the settled row is the only one whose status differs
  rw [moves_map hk' hid rfl, filter_eq_singleton (List.Nodup.of_map _ hk.invitations) hmem]
  · simp [Invitation.settle]
  · have hne : status ≠ found.status := by
      rw [Invitation.isPending_iff.mp hpending]
      exact hstatus
    simpa [Invitation.settle] using hne
  · intro i hi hp
    by_cases hkey : i.id = found.id
    · exact hk.invitation_eq hi hmem hkey
    · simp [hkey] at hp

/-- Where some pending invitations come to a status, they are the ones that moved. -/
theorem moves_where (hk : s.Keyed) {p : Invitation → Bool} {status : InvitationStatus}
    (hp : ∀ i, p i = true → i.isPending = true) (hstatus : status ≠ .pending) :
    s.moves { s with
        invitations := s.invitations.map fun i => if p i then { i with status } else i } =
      (s.invitations.filter p).map fun i => .moved i.id status := by
  have hid : ∀ i ∈ s.invitations, (if p i then { i with status } else i).id = i.id := by
    intro i _
    split <;> rfl
  have hoffers : ∀ i ∈ s.invitations, (if p i then { i with status } else i).offer = i.offer := by
    intro i _
    split <;> rfl
  have hmoved : ∀ i : Invitation,
      ((if p i then { i with status } else i).status ≠ i.status) ↔ p i = true := by
    intro i
    by_cases hi : p i = true
    · have hpending := Invitation.isPending_iff.mp (hp i hi)
      simp [hi, hpending, hstatus]
    · simp [hi]
  rw [moves_map (hk.map_invitations hoffers) hid rfl]
  simp only [hmoved, Bool.decide_eq_true]
  refine List.map_congr_left ?_
  intro i hi
  simp [(List.mem_filter.mp hi).2]

/-- A sweep moves as many invitations as it counts. -/
theorem moves_settleAll (hk : s.Keyed) {p : Invitation → Bool} {status : InvitationStatus}
    {count : Nat} (h : s.settleAll p status = (count, s')) (hstatus : status ≠ .pending) :
    ∃ ids : List Int, ids.length = count ∧ s.moves s' = ids.map (.moved · status) := by
  obtain ⟨rfl, rfl⟩ := settleAll_eq h
  have hp : ∀ i : Invitation, (i.isPending && p i) = true → i.isPending = true := by
    intro i hi
    exact (Bool.and_eq_true_iff.mp hi).1
  refine ⟨(s.invitations.filter fun i => i.isPending && p i).map (·.id), ?_, ?_⟩
  · rw [List.length_map, List.countP_eq_length_filter]
  · rw [List.map_map]
    exact moves_where hk hp hstatus

/-- Among tables that evolve, only pending invitations move, and only to other
statuses. -/
theorem mem_moves (hk' : s'.Keyed) (hevolves : s.Evolves s') {change : Change}
    (h : change ∈ s.moves s') :
    ∃ i ∈ s.invitations, ∃ i' ∈ s'.invitations, i'.offer = i.offer ∧ i.isPending = true ∧
      i'.isPending = false ∧ change = .moved i.id i'.status := by
  obtain ⟨i, hi, hchange⟩ := List.mem_filterMap.mp h
  obtain ⟨i', hi', hoffer, hfinal⟩ := hevolves.invitations i hi
  obtain ⟨hid, -⟩ := Invitation.offer_eq hoffer
  have hfound := hk'.findInvitation_of_mem hi'
  rw [hid] at hfound
  rw [hfound, Option.bind_some] at hchange
  by_cases hsame : i'.status = i.status
  · rw [if_pos hsame] at hchange
    cases hchange
  · rw [if_neg hsame] at hchange
    -- a row that was final would be the same now
    have hpending : i.isPending = true := by
      by_contra hnot
      rw [hfinal (Bool.not_eq_true _ ▸ hnot)] at hsame
      exact hsame rfl
    refine ⟨i, hi, i', hi', hoffer, hpending, ?_, (Option.some.inj hchange).symm⟩
    rw [Invitation.isPending_iff] at hpending
    simpa [Invitation.isPending, hpending] using hsame

/-- No invitation moves twice at once. -/
theorem moves_nodup (hk : s.Keyed) : ((s.moves s').filterMap Change.moved?).Nodup := by
  rw [moves, List.filterMap_filterMap, List.Nodup, List.pairwise_filterMap]
  refine (List.pairwise_map.mp hk.invitations).imp fun {i j} hne a ha b hb => ?_
  -- a row only ever gives its own id, and ids are apart
  have hmoved : ∀ (k : Invitation) (c : Int),
      ((s'.findInvitation k.id).bind fun k' =>
        if k'.status = k.status then none else some (Change.moved k.id k'.status)).bind
          Change.moved? = some c → c = k.id := by
    intro k c hc
    obtain ⟨change, hchange, hmoved⟩ := Option.bind_eq_some_iff.mp hc
    obtain ⟨k', -, hif⟩ := Option.bind_eq_some_iff.mp hchange
    split at hif
    · cases hif
    · cases hif
      exact (Option.some.inj hmoved).symm
  rw [hmoved i a ha, hmoved j b hb]
  exact hne

/-! ## Joins -/

theorem joins_congr {r r' : Tables} (h : s.members = r.members) (h' : s'.members = r'.members) :
    s.joins s' = r.joins r' := by
  simp only [joins, isMember, h, h']

/-- Where every key was there before, nobody joined. -/
theorem joins_eq_nil
    (h : ∀ m ∈ s'.members, ∃ m' ∈ s.members, m'.teamId = m.teamId ∧ m'.userId = m.userId) :
    s.joins s' = [] := by
  rw [joins, List.map_eq_nil_iff, List.filter_eq_nil_iff]
  intro m hm
  rw [isMember_iff.mpr (h m hm)]
  exact Bool.false_ne_true

theorem joins_self (h : s'.members = s.members) : s.joins s' = [] :=
  joins_eq_nil fun m hm => ⟨m, h ▸ hm, rfl, rfl⟩

/-- Where one member came under a new key, that member joined and nobody
else. -/
theorem joins_of_perm {member : Member}
    (hnew : s.isMember member.teamId member.userId = false)
    (hperm : s'.members.Perm (member :: s.members)) :
    s.joins s' = [.joined member.teamId member.userId] := by
  have hnone : s.members.filter (fun m => !s.isMember m.teamId m.userId) = [] := by
    refine List.filter_eq_nil_iff.mpr ?_
    intro m hm
    rw [isMember_iff.mpr ⟨m, hm, rfl, rfl⟩]
    exact Bool.false_ne_true
  -- of the members after, all but the new one were there before
  have hfilter := hperm.filter fun m => !s.isMember m.teamId m.userId
  rw [List.filter_cons_of_pos (by rw [hnew]; rfl), hnone] at hfilter
  rw [joins, List.perm_singleton.mp hfilter]
  rfl

theorem joins_setRole {team user : Int} {role : Role} {now : Instant} {changed : Member}
    (h : s.setRole team user role now = .ok (changed, s')) : s.joins s' = [] := by
  obtain ⟨member, hfound, rfl, rfl⟩ := setRole_ok h
  obtain ⟨hmem, hteam, huser⟩ := findMember_some hfound
  refine joins_eq_nil ?_
  intro m hm
  obtain ⟨m', hm', rfl⟩ := List.mem_map.mp hm
  split
  · exact ⟨member, hmem, rfl, rfl⟩
  · exact ⟨m', hm', rfl, rfl⟩

theorem joins_removeMember {team user : Int} {reply : Unit}
    (h : s.removeMember team user = .ok (reply, s')) : s.joins s' = [] := by
  obtain ⟨-, rfl⟩ := removeMember_ok h
  exact joins_eq_nil fun m hm => ⟨m, List.mem_of_mem_filter hm, rfl, rfl⟩

/-! ## Both -/

theorem moves_self (hk : s'.Keyed) (h : s'.invitations = s.invitations) : s.moves s' = [] :=
  moves_eq_nil hk fun _ hi => h ▸ hi

theorem changes_setRole (hk : s.Keyed) {team user : Int} {role : Role} {now : Instant}
    {changed : Member} (h : s.setRole team user role now = .ok (changed, s')) :
    s.changes s' = [] := by
  have hinvitations : s'.invitations = s.invitations := by
    obtain ⟨_, -, -, rfl⟩ := setRole_ok h
    rfl
  rw [changes, moves_self (setRole_keyed h hk) hinvitations, joins_setRole h]
  rfl

theorem changes_removeMember (hk : s.Keyed) {team user : Int} {reply : Unit}
    (h : s.removeMember team user = .ok (reply, s')) : s.changes s' = [] := by
  have hinvitations : s'.invitations = s.invitations := by
    obtain ⟨-, rfl⟩ := removeMember_ok h
    rfl
  rw [changes, moves_self (removeMember_keyed h hk) hinvitations, joins_removeMember h]
  rfl

theorem changes_createInvitation (hk : s.Keyed) {draft : InvitationDraft}
    {invitation : Invitation} (h : s.createInvitation draft = .ok (invitation, s')) :
    s.changes s' = [] := by
  have hk' := createInvitation_keyed h hk
  obtain ⟨-, -, -, rfl⟩ := createInvitation_ok h
  have hmoves := moves_eq_nil hk' fun i hi => List.mem_append_left [invitation] hi
  have hjoins := joins_eq_nil fun m (hm : m ∈ s.members) => ⟨m, hm, rfl, rfl⟩
  exact List.append_eq_nil_iff.mpr ⟨hmoves, hjoins⟩

theorem changes_settle (hk : s.Keyed) {id : Int} {status : InvitationStatus} {now : Instant}
    {settled : Invitation} (h : s.settleInvitation id status now = .ok (some settled, s'))
    (hstatus : status ≠ .pending) : s.changes s' = [.moved id status] := by
  have hmembers : s'.members = s.members := by
    obtain ⟨_, -, -, -, rfl⟩ := settleInvitation_ok h
    rfl
  rw [changes, moves_settle hk h hstatus, joins_self hmembers]
  rfl

theorem changes_settleAll (hk : s.Keyed) {p : Invitation → Bool} {status : InvitationStatus}
    {count : Nat} (h : s.settleAll p status = (count, s')) (hstatus : status ≠ .pending) :
    ∃ ids : List Int, ids.length = count ∧ s.changes s' = ids.map (.moved · status) := by
  have hmembers : s'.members = s.members := by
    obtain ⟨-, rfl⟩ := settleAll_eq h
    rfl
  obtain ⟨ids, hlength, hmoves⟩ := moves_settleAll hk h hstatus
  exact ⟨ids, hlength, by rw [changes, hmoves, joins_self hmembers, List.append_nil]⟩

theorem changes_congr {r r' : Tables} (hinvitations : s.invitations = r.invitations)
    (hmembers : s.members = r.members) (hinvitations' : s'.invitations = r'.invitations)
    (hmembers' : s'.members = r'.members) : s.changes s' = r.changes r' := by
  rw [changes, changes, moves_congr hinvitations hinvitations', joins_congr hmembers hmembers']

/-- The moves among the changes. -/
theorem filterMap_changes :
    (s.changes s').filterMap Change.moved? = (s.moves s').filterMap Change.moved? := by
  have hjoins : (s.joins s').filterMap Change.moved? = [] := by
    refine List.filterMap_eq_nil_iff.mpr ?_
    intro change hchange
    obtain ⟨m, -, rfl⟩ := List.mem_map.mp hchange
    rfl
  rw [changes, List.filterMap_append, hjoins, List.append_nil]

/-- Tables that are the same but for teams and users did not change. -/
theorem changes_eq_nil (hk : s'.Keyed) (hinvitations : s'.invitations = s.invitations)
    (hmembers : s'.members = s.members) : s.changes s' = [] := by
  rw [changes, moves_eq_nil hk fun i hi => hinvitations ▸ hi, joins_self hmembers]
  rfl

end Tables

end Roster
