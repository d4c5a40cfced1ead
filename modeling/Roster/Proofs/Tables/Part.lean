import Roster.Proofs.Tables.Arranged

/-!
# The part of a team

* `Tables.part` — what the tables hold of a team: its row, its members and its invitations;
* `Tables.Arranged.ext` — arranged tables are known by their parts;
* `Tables.Confines` — a call does on the part of a team what it does on the tables, and leaves
  every other part alone. What reads and writes of a team need for that is stated for each of
  them; a token and the id of an invitation must not belong to another team.
-/

namespace Roster

section

variable {α : Type} {key : α → Int} {l : List α}

/-- Rows of one key are found among the rows of that key. -/
theorem find?_filter_of_imp {p q : α → Bool} (h : ∀ a ∈ l, p a = true → q a = true) :
    (l.filter q).find? p = l.find? p := by
  induction l with
  | nil => rfl
  | cons head tail ih =>
    have htail := ih fun a ha => h a (List.mem_cons_of_mem _ ha)
    by_cases hq : q head = true
    · rw [List.filter_cons_of_pos hq, List.find?_cons, List.find?_cons, htail]
    · have hp : p head = false := by
        rw [Bool.eq_false_iff]
        exact fun hp => hq (h head List.mem_cons_self hp)
      rw [List.filter_cons_of_neg hq, List.find?_cons_of_neg (Bool.eq_false_iff.mp hp), htail]

/-- They are counted among them, too. -/
theorem countP_filter_of_imp {p q : α → Bool} (h : ∀ a ∈ l, p a = true → q a = true) :
    (l.filter q).countP p = l.countP p := by
  rw [List.countP_filter]
  refine List.countP_congr ?_
  intro a ha
  rw [Bool.and_eq_true]
  exact ⟨fun hp => hp.1, fun hp => ⟨hp, h a ha hp⟩⟩

/-- If only rows of one key are changed, and keep it, then the rows of that key are changed and
those of every other key stay. -/
theorem filter_map_ite {k : Int} {c : α → Prop} [DecidablePred c] {g : α → α}
    (hc : ∀ a ∈ l, c a → key a = k) (hg : ∀ a ∈ l, c a → key (g a) = k) :
    ((l.map fun a => if c a then g a else a).filter fun a => key a = k) =
        ((l.filter fun a => key a = k).map fun a => if c a then g a else a) ∧
      ∀ other, other ≠ k →
        ((l.map fun a => if c a then g a else a).filter fun a => key a = other) =
          l.filter fun a => key a = other := by
  have hkey : ∀ a ∈ l, key (if c a then g a else a) = key a := by
    intro a ha
    split
    · rename_i hchanged
      exact (hg a ha hchanged).trans (hc a ha hchanged).symm
    · rfl
  have hmoves : ∀ k', ((l.map fun a => if c a then g a else a).filter fun a => key a = k') =
      (l.filter fun a => key a = k').map fun a => if c a then g a else a := by
    intro k'
    rw [List.filter_map]
    refine congrArg (List.map _) (List.filter_congr ?_)
    intro a ha
    rw [Function.comp_apply, hkey a ha]
  refine ⟨hmoves k, ?_⟩
  intro other hother
  rw [hmoves other]
  refine (List.map_congr_left ?_).trans (List.map_id _)
  intro a ha
  obtain ⟨hmem, hk⟩ := List.mem_filter.mp ha
  exact if_neg fun hchanged => hother ((of_decide_eq_true hk).symm.trans (hc a hmem hchanged))

end

namespace Tables

/-- What the tables hold of a team. Users, the last ids and the failure of writes are no
team's and stay. -/
def part (s : Tables) (team : Int) : Tables :=
  { s with
    teams := s.teams.filter fun t => t.id = team
    members := s.members.filter fun m => m.teamId = team
    invitations := s.invitations.filter fun i => i.teamId = team }

/-- Arranged tables are known by their parts. -/
theorem Arranged.ext {s t : Tables} (hs : s.Arranged) (ht : t.Arranged)
    (h : ∀ team, s.part team = t.part team) : s = t := by
  have hteams : s.teams = t.teams :=
    eq_of_filter_eq (fun _ _ => Int.lt_asymm) hs.teams ht.teams fun k => congrArg Tables.teams (h k)
  have hmembers : s.members = t.members := by
    refine eq_of_filter_eq ?_ hs.members ht.members fun k => congrArg Tables.members (h k)
    intro a b hab hba
    have hab := Member.precedes_iff.mp hab
    have hba := Member.precedes_iff.mp hba
    omega
  have hinvitations : s.invitations = t.invitations :=
    eq_of_filter_eq (fun _ _ => Int.lt_asymm) hs.invitations ht.invitations
      fun k => congrArg Tables.invitations (h k)
  have hrest := h 0
  cases s
  cases t
  simp only [part, mk.injEq] at hrest
  obtain ⟨husers, -, -, -, huser, hteam, hinvitation, hfail⟩ := hrest
  simp only [mk.injEq]
  exact ⟨husers, hteams, hmembers, hinvitations, huser, hteam, hinvitation, hfail⟩

variable {s : Tables} {team : Int}

/-! ## Reads -/

theorem findTeam_part (s : Tables) (team : Int) : (s.part team).findTeam team = s.findTeam team := by
  refine find?_filter_of_imp ?_
  intro t _ hp
  exact (Bool.and_eq_true _ _ ▸ hp).1

theorem findMember_part (s : Tables) (team user : Int) :
    (s.part team).findMember team user = s.findMember team user := by
  refine find?_filter_of_imp ?_
  intro m _ hp
  exact decide_eq_true (Member.isOf_iff.mp hp).1

theorem isMember_part (s : Tables) (team user : Int) :
    (s.part team).isMember team user = s.isMember team user := by
  rw [← isSome_findMember, ← isSome_findMember, findMember_part]

theorem countMembers_part (s : Tables) (team : Int) :
    (s.part team).countMembers team = s.countMembers team := by
  have hcount : (s.part team).members.countP (fun m => m.teamId = team) =
      s.members.countP fun m => m.teamId = team := countP_filter_of_imp fun _ _ hp => hp
  rw [countMembers, countMembers, hcount]

theorem findInvitation_part {id : Int} (h : ∀ i ∈ s.invitations, i.id = id → i.teamId = team) :
    (s.part team).findInvitation id = s.findInvitation id := by
  refine find?_filter_of_imp ?_
  intro i hi hp
  exact decide_eq_true (h i hi (of_decide_eq_true hp))

theorem findInvitationByToken_part {hash : String}
    (h : ∀ i ∈ s.invitations, i.tokenHash = hash → i.teamId = team) :
    (s.part team).findInvitationByToken hash = s.findInvitationByToken hash := by
  refine find?_filter_of_imp ?_
  intro i hi hp
  exact decide_eq_true (h i hi (of_decide_eq_true hp))

/-! ## Writes -/

/-- On the part of a team a call does what it does on the tables, and it leaves the parts of
other teams alone. -/
structure Confines {α : Type} (s : Tables) (team : Int) (call : StoreCall α) : Prop where
  part : (s.part team).perform call =
    (s.perform call).map fun done => (done.1, done.2.part team)
  others : ∀ reply s', s.perform call = .ok (reply, s') →
    ∀ other, other ≠ team → s'.part other = s.part other

/-- A call that fails on the tables and on the part of the team does so alike. -/
theorem Confines.of_error {α : Type} {call : StoreCall α} {e : TeamError}
    (h : s.perform call = .error e) (hpart : (s.part team).perform call = .error e) :
    s.Confines team call where
  part := by rw [h, hpart]; rfl
  others := by
    intro reply s' hok
    rw [h] at hok
    cases hok

/-- A call that succeeds on both gives the same reply, on the part it leaves the part of what it
leaves, and other parts stay. -/
theorem Confines.of_ok {α : Type} {call : StoreCall α} (reply : α) (s' : Tables)
    (h : s.perform call = .ok (reply, s'))
    (hpart : (s.part team).perform call = .ok (reply, s'.part team))
    (hothers : ∀ other, other ≠ team → s'.part other = s.part other) :
    s.Confines team call where
  part := by rw [h, hpart]; rfl
  others := by
    intro reply' s'' hok
    rw [h] at hok
    cases hok
    exact hothers

/-- Deleting a team. -/
theorem confines_deleteTeam (s : Tables) (team : Int) (now : Instant) :
    s.Confines team (.deleteTeam team now) := by
  by_cases hgone : (s.findTeam team).isNone = true
  · refine .of_error (e := .teamNotFound team) ?_ ?_
    · rw [perform, deleteTeam, if_pos hgone]
    · rw [perform, deleteTeam, findTeam_part, if_pos hgone]
  · obtain ⟨hown, hothers⟩ := filter_map_ite (l := s.teams) (c := fun t => t.id = team)
      (g := fun t => t.markDeleted now) (fun _ _ hid => hid) fun _ _ hid => hid
    refine .of_ok () { s with
      teams := s.teams.map fun t => if t.id = team then t.markDeleted now else t } ?_ ?_ ?_
    · rw [perform, deleteTeam, if_neg hgone]
    · rw [perform, deleteTeam, findTeam_part, if_neg hgone]
      simp only [part, hown]
    · intro other hother
      simp only [part, hothers other hother]

/-- Updating a team, if the record keeps the owner and the slug that the active team has: then no
other team is in its way. -/
theorem confines_updateTeam (hr : s.Regular) {record : Team} (hid : record.id = team)
    (hkeeps : ∀ before, s.findTeam team = some before →
      before.ownerId = record.ownerId ∧ before.slug = record.slug) :
    s.Confines team (.updateTeam record) := by
  subst hid
  by_cases hgone : (s.findTeam record.id).isNone = true
  · refine .of_error (e := .teamNotFound record.id) ?_ ?_
    · rw [perform, updateTeam, if_pos hgone]
    · rw [perform, updateTeam, findTeam_part, if_pos hgone]
  · obtain ⟨before, hfound⟩ :=
      Option.ne_none_iff_exists'.mp (mt Option.isNone_iff_eq_none.mpr hgone)
    obtain ⟨howner, hslug⟩ := hkeeps before hfound
    obtain ⟨hmem, hid, hactive⟩ := findTeam_some hfound
    have hfree : s.slugInUse record.ownerId record.slug (some record.id) = false := by
      refine slugInUse_false.mpr ?_
      intro t ht hsame
      simp only [Bool.and_eq_true, decide_eq_true_eq] at hsame
      obtain ⟨⟨htactive, htowner⟩, htslug⟩ := hsame
      have hfirst := hr.findTeamBySlug_of_mem ht htactive
      rw [htowner, htslug, ← howner, ← hslug,
        hr.findTeamBySlug_of_mem hmem (Team.isActive_iff.mpr hactive)] at hfirst
      rw [← Option.some.inj hfirst, hid]
    have hfreePart : (s.part record.id).slugInUse record.ownerId record.slug (some record.id) =
        false := by
      refine slugInUse_false.mpr ?_
      exact fun t ht => slugInUse_false.mp hfree t (List.mem_of_mem_filter ht)
    obtain ⟨hown, hothers⟩ := filter_map_ite (l := s.teams) (c := fun t => t.id = record.id)
      (g := fun _ => record) (fun _ _ hid => hid) fun _ _ _ => rfl
    refine .of_ok record { s with
      teams := s.teams.map fun t => if t.id = record.id then record else t } ?_ ?_ ?_
    · rw [perform, updateTeam, if_neg hgone, hfree]
      rfl
    · rw [perform, updateTeam, findTeam_part, if_neg hgone, hfreePart, if_neg Bool.false_ne_true]
      simp only [part, hown]
    · intro other hother
      simp only [part, hothers other hother]

/-- Adding a member. -/
theorem confines_addMember (ha : s.Arranged) {draft : MemberDraft} (hteam : draft.teamId = team) :
    s.Confines team (.addMember draft) := by
  subst hteam
  cases hmember : s.isMember draft.teamId draft.userId with
  | true =>
    refine .of_error (e := .alreadyMember draft.teamId) ?_ ?_
    · rw [perform, addMember, if_pos hmember]
    · rw [perform, addMember, isMember_part, if_pos hmember]
  | false =>
    have htrans : ∀ a b : Member, draft.member.Precedes a → a.Precedes b →
        draft.member.Precedes b := by
      intro a b hab hbc
      have hab := Member.precedes_iff.mp hab
      have hbc := Member.precedes_iff.mp hbc
      refine Member.precedes_iff.mpr ?_
      omega
    -- among the members of the team the new one finds the same place
    have hplace : (insertBefore (fun a b => keyBefore a.teamId a.userId b.teamId b.userId)
          draft.member s.members).filter (fun m => m.teamId = draft.teamId) =
        insertBefore (fun a b => keyBefore a.teamId a.userId b.teamId b.userId) draft.member
          (s.members.filter fun m => m.teamId = draft.teamId) :=
      filter_insertBefore (decide_eq_true rfl) htrans ha.members
    have helsewhere : ∀ other, other ≠ draft.teamId →
        (insertBefore (fun a b => keyBefore a.teamId a.userId b.teamId b.userId) draft.member
          s.members).filter (fun m => m.teamId = other) =
        s.members.filter fun m => m.teamId = other := by
      intro other hother
      refine filter_insertBefore_other ?_ s.members
      exact decide_eq_false fun heq => hother heq.symm
    refine .of_ok draft.member { s with
      members := insertBefore (fun a b => keyBefore a.teamId a.userId b.teamId b.userId)
        draft.member s.members } ?_ ?_ ?_
    · rw [perform, addMember, hmember, if_neg Bool.false_ne_true]
    · rw [perform, addMember, isMember_part, hmember, if_neg Bool.false_ne_true]
      simp only [part, hplace]
    · intro other hother
      simp only [part, helsewhere other hother]

/-- Changing the role of a member. -/
theorem confines_setRole (s : Tables) (team user : Int) (role : Role) (now : Instant) :
    s.Confines team (.setRole team user role now) := by
  cases hfound : s.findMember team user with
  | none =>
    refine .of_error (e := .memberNotFound team user) ?_ ?_
    · rw [perform, setRole, hfound]
    · rw [perform, setRole, findMember_part, hfound]
  | some member =>
    obtain ⟨-, hteam, -⟩ := findMember_some hfound
    obtain ⟨hown, hothers⟩ := filter_map_ite (l := s.members)
      (c := fun m => m.isOf team user = true) (g := fun _ => { member with role, updatedAt := now })
      (fun _ _ hof => (Member.isOf_iff.mp hof).1) fun _ _ _ => hteam
    refine .of_ok { member with role, updatedAt := now } { s with
      members := s.members.map fun m =>
        if m.isOf team user then { member with role, updatedAt := now } else m } ?_ ?_ ?_
    · rw [perform, setRole, hfound]
    · rw [perform, setRole, findMember_part, hfound]
      simp only [part, hown]
    · intro other hother
      simp only [part, hothers other hother]

/-- Removing a member. -/
theorem confines_removeMember (s : Tables) (team user : Int) :
    s.Confines team (.removeMember team user) := by
  cases hmember : s.isMember team user with
  | false =>
    refine .of_error (e := .memberNotFound team user) ?_ ?_
    · rw [perform, removeMember, hmember, if_neg Bool.false_ne_true]
    · rw [perform, removeMember, isMember_part, hmember, if_neg Bool.false_ne_true]
  | true =>
    refine .of_ok () { s with members := s.members.filter fun m => !m.isOf team user } ?_ ?_ ?_
    · rw [perform, removeMember, if_pos hmember]
    · rw [perform, removeMember, isMember_part, if_pos hmember]
      simp only [part, List.filter_filter, Bool.and_comm]
    · intro other hother
      simp only [part, List.filter_filter, mk.injEq, true_and, and_true]
      refine List.filter_congr ?_
      intro m _
      by_cases hm : m.teamId = other
      · have hof : m.isOf team user = false := by
          rw [Bool.eq_false_iff]
          exact fun hof => hother (hm.symm.trans (Member.isOf_iff.mp hof).1)
        rw [hof]
        simp
      · simp [hm]

/-- Settling an invitation of the team. -/
theorem confines_settleInvitation {id : Int} {status : InvitationStatus} {now : Instant}
    (hteam : ∀ i ∈ s.invitations, i.id = id → i.teamId = team) :
    s.Confines team (.settleInvitation id status now) := by
  have hfailing : (s.part team).failSettling = s.failSettling := rfl
  cases hfail : s.failSettling with
  | true =>
    refine .of_error (e := .database "injected failure: update_status") ?_ ?_
    · rw [perform, settleInvitation, if_pos hfail]
    · rw [perform, settleInvitation, if_pos (hfailing.trans hfail)]
  | false =>
    have hworks : ¬s.failSettling = true := Bool.eq_false_iff.mp hfail
    have hworksPart : ¬(s.part team).failSettling = true := hworks
    have hfind := findInvitation_part hteam
    cases hfound : s.findInvitation id with
    | none =>
      refine .of_error (e := .invitationNotFound) ?_ ?_
      · rw [perform, settleInvitation, if_neg hworks, hfound]
      · rw [perform, settleInvitation, if_neg hworksPart, hfind, hfound]
    | some found =>
      by_cases hpending : found.isPending = true
      · obtain ⟨hmem, hid⟩ := findInvitation_some hfound
        obtain ⟨hown, hothers⟩ := filter_map_ite (l := s.invitations) (c := fun i => i.id = id)
          (g := fun _ => found.settle status now) hteam fun _ _ _ => hteam found hmem hid
        refine .of_ok (some (found.settle status now)) { s with
          invitations := s.invitations.map fun i =>
            if i.id = id then found.settle status now else i } ?_ ?_ ?_
        · simp only [perform, settleInvitation, if_neg hworks, hfound, if_pos hpending]
        · simp only [perform, settleInvitation, if_neg hworksPart, hfind, hfound, if_pos hpending]
          simp only [part, hown]
        · intro other hother
          simp only [part, hothers other hother]
      · refine .of_ok none s ?_ ?_ fun _ _ => rfl
        · simp only [perform, settleInvitation, if_neg hworks, hfound, if_neg hpending]
        · simp only [perform, settleInvitation, if_neg hworksPart, hfind, hfound, if_neg hpending]

/-- Settling pending invitations of the team. -/
theorem confines_settleAll {call : StoreCall Nat} {p : Invitation → Bool}
    {status : InvitationStatus} (hteam : ∀ i, p i = true → i.teamId = team)
    (hcall : ∀ s : Tables, s.perform call = .ok (s.settleAll p status)) :
    s.Confines team call := by
  have hmoves : ∀ i, (i.isPending && p i) = true → i.teamId = team := by
    intro i hi
    exact hteam i (Bool.and_eq_true_iff.mp hi).2
  obtain ⟨hown, hothers⟩ := filter_map_ite (l := s.invitations)
    (c := fun i => (i.isPending && p i) = true) (g := fun i => { i with status })
    (fun i _ => hmoves i) fun i _ => hmoves i
  refine .of_ok (s.settleAll p status).1 (s.settleAll p status).2 (hcall s) ?_ ?_
  · have hcount : (s.invitations.filter fun i => i.teamId = team).countP
        (fun i => i.isPending && p i) = s.invitations.countP fun i => i.isPending && p i :=
      countP_filter_of_imp fun i _ hi => decide_eq_true (hmoves i hi)
    rw [hcall]
    simp only [settleAll, part, hcount, hown]
  · intro other hother
    simp only [settleAll, part, hothers other hother]

/-- Revoking the pending invitations of the team. -/
theorem confines_revokePending (s : Tables) (team : Int) : s.Confines team (.revokePending team) :=
  confines_settleAll (fun _ hp => of_decide_eq_true hp) fun _ => rfl

/-- Moving those past their expiry. -/
theorem confines_expireStale (s : Tables) (team : Int) (now : Instant) :
    s.Confines team (.expireStale (some team) now) := by
  refine confines_settleAll (p := fun i => ofTeam (some team) i && i.isExpiredAt now)
    ?_ fun _ => rfl
  intro i hp
  exact of_decide_eq_true (Bool.and_eq_true_iff.mp hp).1

end Tables

end Roster
