import Roster.Proofs.Database.Programs
import Roster.Proofs.WellFormed

/-!
# Calls on mirrored worlds

* `Tables.Dated` — the stored instants that a store ever compares have years of
  four digits;
* `World.Ready` — a world whose tables are well formed and dated, at a time that
  is too, and in which no write is made to fail;
* `Call.suits` — every call suits every ready world: what it has read before it
  writes is what the other store checks again.
-/

namespace Roster

/-- The instants by which rows are sorted or selected have years of four digits. -/
structure Tables.Dated (s : Tables) : Prop where
  teams : ∀ t ∈ s.teams, t.createdAt.InFourDigits
  members : ∀ m ∈ s.members, m.joinedAt.InFourDigits
  invitations : ∀ i ∈ s.invitations, i.createdAt.InFourDigits
  expiries : ∀ i ∈ s.invitations, i.expiresAt.InFourDigits

theorem Tables.dated_iff {s : Tables} : s.Dated ↔
    (∀ t ∈ s.teams, t.createdAt.InFourDigits) ∧ (∀ m ∈ s.members, m.joinedAt.InFourDigits) ∧
      (∀ i ∈ s.invitations, i.createdAt.InFourDigits) ∧
      ∀ i ∈ s.invitations, i.expiresAt.InFourDigits :=
  ⟨fun h => ⟨h.teams, h.members, h.invitations, h.expiries⟩,
    fun ⟨hteams, hmembers, hinvitations, hexpiries⟩ =>
      ⟨hteams, hmembers, hinvitations, hexpiries⟩⟩

instance (s : Tables) : Decidable s.Dated :=
  decidable_of_iff' _ Tables.dated_iff

/-- A world in which both stores answer alike. -/
structure World.Ready (w : World Tables) : Prop where
  proper : w.store.Proper
  dated : w.store.Dated
  time : w.clock.InFourDigits
  works : w.store.failSettling = false

/-- No team has more members than a count can tell. -/
theorem Tables.Proper.membersOf_le {s : Tables} (h : s.Proper) (team : Int) :
    s.membersOf team ≤ maxCount := by
  by_cases hstored : ∃ t ∈ s.teams, t.id = team
  · obtain ⟨t, ht, rfl⟩ := hstored
    exact (h.wellFormed.rooms t ht).trans (Nat.le_of_lt_succ t.memberLimit.toNat_lt)
  · -- members belong to stored teams
    have hnone : s.membersOf team = 0 := by
      refine List.countP_eq_zero.mpr ?_
      intro m hm hteam
      obtain ⟨t, ht, hid⟩ := h.wellFormed.members m hm
      exact hstored ⟨t, ht, hid.trans (of_decide_eq_true hteam)⟩
    omega

namespace Program

variable {α : Type} {w : World Tables}

/-! ## What calls share -/

theorem suits_requireTeam {team : Int} {f : Team → Program α}
    (h : ∀ found, w.store.findTeam team = some found → (f found).Suits w) :
    (ofWork (requireTeam team) >>= f).Suits w := by
  unfold requireTeam
  rw [ofWork_bind, bind_assoc]
  refine suits_read trivial rfl ?_
  apply suits_found
  exact h

theorem suits_get {team user : Int} {f : Member → Program α} (h : ∀ member, (f member).Suits w) :
    (ofWork (Membership.get team user) >>= f).Suits w := by
  unfold Membership.get
  rw [ofWork_bind, bind_assoc]
  refine suits_read trivial rfl ?_
  apply suits_found
  exact fun member _ => h member

theorem suits_permission {team user : Int} {permission : Permission} {f : Member → Program α}
    (h : ∀ member, (f member).Suits w) :
    (ofWork (Membership.require team user permission) >>= f).Suits w := by
  unfold Membership.require
  simp only [ofWork_bind, bind_assoc, ofWork_pure, pure_bind]
  refine suits_read trivial rfl ?_
  apply suits_found
  intro member _
  apply suits_require
  exact fun _ => h member

theorem suits_count (hready : w.Ready) {team : Int} {f : UInt32 → Program α}
    (h : (f (w.store.countMembers team)).Suits w) :
    (ofWork (Membership.count team) >>= f).Suits w :=
  suits_read (hready.proper.membersOf_le team) rfl h

/-- Changing a role writes once. -/
theorem suits_changeRole {team target requester : Int} {role : Role} {f : Member → Program α}
    (h : ∀ changed w', (f changed).Suits w') :
    (ofWork (Membership.changeRole team target requester role) >>= f).Suits w := by
  unfold Membership.changeRole
  simp only [ofWork_bind, bind_assoc]
  apply suits_permission
  intro acting
  apply suits_get
  intro member
  apply suits_require
  intro _
  apply suits_require
  intro _
  apply suits_require
  intro _
  apply suits_now
  exact suits_write trivial fun changed _ _ => h changed _

/-- Removing a member writes once. -/
theorem suits_remove {team target requester : Int} {f : Unit → Program α}
    (h : ∀ w', (f ()).Suits w') :
    (ofWork (Membership.remove team target requester) >>= f).Suits w := by
  unfold Membership.remove
  simp only [ofWork_bind, bind_assoc]
  apply suits_get
  intro member
  apply suits_require
  intro _
  split
  · rw [ofWork_bind, bind_assoc]
    apply suits_permission
    intro acting
    exact suits_write trivial fun _ _ _ => h _
  · exact suits_write trivial fun _ _ _ => h _

/-- A last log line and a result suit any world. -/
theorem suits_finish (line : LogLine) (a : α) (w' : World Tables) :
    (log line >>= fun _ => pure a).Suits w' := suits_log trivial

end Program

open Program

variable {w : World Tables}

/-! ## Units of work -/

namespace UnitOfWork

/-- The team of an owner is stored before the owner's membership. -/
theorem foundTeam_suits {draft : TeamDraft} (hlimit : draft.memberLimit ≠ 0) :
    (ofWork (foundTeam draft)).Suits w := by
  unfold foundTeam Membership.addOwner
  simp only [ofWork_bind, ofWork_pure]
  refine suits_write hlimit ?_
  intro team s hcreate
  obtain ⟨-, -, rfl⟩ := Tables.createTeam_ok hcreate
  refine suits_write ⟨team, List.mem_append_right _ List.mem_cons_self, rfl⟩ ?_
  exact fun _ _ _ => trivial

/-- A user is enrolled in a stored team, and the settlement is not made to fail. -/
theorem enrolMember_suits (hready : w.Ready) (invitation : Invitation) (user : Int) :
    (ofWork (enrolMember invitation user)).Suits w := by
  unfold enrolMember Membership.add
  simp only [ofWork_bind, ofWork_pure, bind_assoc]
  refine suits_read trivial rfl ?_
  apply suits_found
  intro team hfound
  obtain ⟨hmem, -, -⟩ := Tables.findTeam_some hfound
  apply suits_count hready
  apply suits_require
  intro _
  apply suits_require
  intro _
  apply suits_now
  refine suits_write ⟨team, hmem, rfl⟩ ?_
  intro member s hadd
  apply suits_now
  have hworks : s.failSettling = false := by
    obtain ⟨-, -, -, hs⟩ := Tables.addMember_ok hadd
    rw [hs]
    exact hready.works
  refine suits_write hworks ?_
  intro settled _ _
  apply suits_found
  exact fun _ _ => trivial

theorem dissolveTeam_suits (hready : w.Ready) (team : Int) (now : Instant) :
    (ofWork (dissolveTeam team now)).Suits w := by
  unfold dissolveTeam
  simp only [ofWork_bind]
  refine suits_write hready.proper.keyed ?_
  intro _ s _
  exact suits_ofWork.mpr ⟨trivial, fun _ _ _ => trivial⟩

end UnitOfWork

/-! ## Teams -/

theorem suits_createTeam (config : Config) (input : CreateTeam) :
    (createTeam config input).Suits w := by
  unfold createTeam
  apply suits_input
  intro name
  apply suits_require
  intro hlimit
  refine suits_read trivial rfl ?_
  apply suits_require
  intro _
  apply suits_now
  exact suits_atomically (UnitOfWork.foundTeam_suits (of_decide_eq_true hlimit))
    fun _ _ => suits_finish _ _ _

namespace UpdateTeam

/-- Giving a name reads and renames. -/
theorem suits_applyName {α : Type} {before : Team} {now : Instant} {given : Option String}
    {f : Team → Program α}
    (h : ∀ name : Option String, (f (name.elim before (before.rename · now))).Suits w) :
    (ofWork (applyName before now given) >>= f).Suits w := by
  cases given with
  | none => exact h none
  | some text =>
    unfold applyName
    simp only [ofWork_bind, bind_assoc, ofWork_pure, pure_bind]
    apply suits_input
    intro name
    refine suits_read trivial rfl ?_
    apply suits_require
    exact fun _ => h (some name)

/-- Giving a limit counts, and fails if the limit is zero. -/
theorem suits_applyLimit {α : Type} (hready : w.Ready) {team : Team} {now : Instant}
    {given : Option UInt32} {f : Team → Program α}
    (h : (∀ limit, given = some limit → limit ≠ 0) →
      (f (given.elim team fun limit => { team with memberLimit := limit, updatedAt := now })).Suits
        w) :
    (ofWork (applyLimit team now given) >>= f).Suits w := by
  cases given with
  | none => exact h fun limit hlimit => absurd hlimit.symm (Option.some_ne_none limit)
  | some limit =>
    unfold applyLimit
    simp only [ofWork_bind, bind_assoc]
    apply suits_count hready
    apply suits_require
    intro _
    by_cases hzero : limit = 0
    · simp only [Team.setMemberLimit, if_pos hzero]
      trivial
    · simp only [Team.setMemberLimit, if_neg hzero]
      refine h ?_
      rintro limit' ⟨⟩
      exact hzero

end UpdateTeam

/-- What is written back has the owner, the status and the date of what was read, and a
limit that is not zero. -/
theorem suits_updateTeam (hready : w.Ready) (input : UpdateTeam) :
    (updateTeam input).Suits w := by
  rw [UpdateTeam.updateTeam_eq]
  apply suits_requireTeam
  intro before hfound
  obtain ⟨hmem, hid, -⟩ := Tables.findTeam_some hfound
  unfold UpdateTeam.amend
  simp only [liftM_work]
  apply suits_permission
  intro _
  apply suits_now
  apply UpdateTeam.suits_applyName
  intro name
  apply UpdateTeam.suits_applyLimit hready
  intro hpositive
  obtain ⟨hsame, howner, hcreated, hstatus⟩ := input.revise_kept name before w.clock
  have hlimit : (input.revise name before w.clock).memberLimit ≠ 0 := by
    rw [(input.revise_fields name before w.clock).2.2.2.2]
    cases hgiven : input.memberLimit with
    | some limit => exact hpositive limit hgiven
    | none =>
      intro hzero
      have hold := (hready.proper.wellFormed.teams before hmem).limit
      rw [Option.getD_none] at hzero
      rw [hzero] at hold
      exact absurd hold (by decide)
  have hfits : (StoreCall.updateTeam (input.revise name before w.clock)).Fits w.store := by
    refine ⟨hlimit, ?_⟩
    intro stored hstored
    rw [hsame, hid, hfound] at hstored
    cases hstored
    exact ⟨howner.symm, hstatus.symm, hcreated.symm⟩
  exact suits_write hfits fun _ _ _ => suits_finish _ _ _

theorem suits_deleteTeam (hready : w.Ready) (team requester : Int) :
    (deleteTeam team requester).Suits w := by
  unfold deleteTeam
  apply suits_requireTeam
  intro found _
  refine suits_read trivial rfl ?_
  apply suits_found
  intro member _
  apply suits_require
  intro _
  apply suits_now
  exact suits_atomically (UnitOfWork.dissolveTeam_suits hready team _)
    fun _ _ => suits_finish _ _ _

theorem suits_getTeam (team requester : Int) : (getTeam team requester).Suits w := by
  unfold getTeam
  apply suits_requireTeam
  intro found _
  apply suits_permission
  exact fun _ => trivial

theorem suits_withRoles {α : Type} (user : Int) (teams : List Team) (f : List MyTeam → Program α)
    (h : ∀ listed, (f listed).Suits w) : (ofWork (withRoles user teams) >>= f).Suits w := by
  induction teams generalizing f with
  | nil => exact h []
  | cons team rest ih =>
    unfold withRoles
    simp only [ofWork_bind, bind_assoc]
    refine suits_read trivial rfl ?_
    apply ih
    exact fun listed => h _

theorem suits_listMyTeams (hready : w.Ready) (user : Int) (page : Page) :
    (listMyTeams user page).Suits w := by
  unfold listMyTeams
  refine suits_read hready.dated.teams rfl ?_
  exact suits_of_bind_pure (suits_withRoles user _ _ fun _ => trivial)

/-! ## Members -/

theorem suits_listMembers (hready : w.Ready) (team requester : Int) :
    (listMembers team requester).Suits w := by
  unfold listMembers
  apply suits_requireTeam
  intro _ _
  apply suits_permission
  intro _
  exact suits_of_bind_pure (suits_read hready.dated.members rfl trivial)

theorem suits_updateMemberRole (team target requester : Int) (role : Role) :
    (updateMemberRole team target requester role).Suits w := by
  unfold updateMemberRole
  apply suits_requireTeam
  intro _ _
  exact suits_changeRole fun _ _ => suits_finish _ _ _

theorem suits_removeMember (team target requester : Int) :
    (removeMember team target requester).Suits w := by
  unfold removeMember
  apply suits_requireTeam
  intro _ _
  exact suits_remove fun _ => ⟨trivial, trivial⟩

theorem suits_leaveTeam (team user : Int) : (leaveTeam team user).Suits w := by
  unfold leaveTeam Membership.leave
  apply suits_requireTeam
  intro _ _
  exact suits_remove fun _ => ⟨trivial, trivial⟩

theorem suits_membershipCall (hready : w.Ready) (call : MembershipCall) :
    call.program.Suits w := by
  apply suits_of_bind_pure
  cases call with
  | get team user => exact suits_get fun _ => trivial
  | count team => exact suits_count hready trivial
  | require team user permission => exact suits_permission fun _ => trivial
  | changeRole team target requester role => exact suits_changeRole fun _ _ => trivial
  | remove team target requester => exact suits_remove fun _ => trivial
  | leave team user => exact suits_remove fun _ => trivial

/-! ## Invitations -/

/-- The checks of an invitation find the team, and no pending invitation of the address. -/
theorem suits_checkInvitee {α : Type} (hready : w.Ready) {team inviter : Int} {email : String}
    {role : Role} {f : String × Option User → Program α}
    (h : ∀ address invitee, (∃ t ∈ w.store.teams, t.id = team) →
      w.store.findPendingInvitation team address = none → (f (address, invitee)).Suits w) :
    (checkInvitee team inviter email role >>= f).Suits w := by
  unfold checkInvitee
  simp only [liftM_work, bind_assoc]
  apply suits_permission
  intro member
  apply suits_require
  intro _
  apply suits_require
  intro _
  apply suits_requireTeam
  intro found hfound
  obtain ⟨hmem, hid, -⟩ := Tables.findTeam_some hfound
  apply suits_count hready
  apply suits_require
  intro _
  apply suits_input
  intro _
  apply suits_userByEmail
  -- whoever has the address, the last check is for a pending invitation
  have hrest : ∀ invitee, (ofWork (Work.perform (.findPendingInvitation team
      (Email.normalize email))) >>= fun outstanding =>
        ofWork (Work.require outstanding.isNone (.alreadyInvited team)) >>= fun _ =>
          f (Email.normalize email, invitee)).Suits w := by
    intro invitee
    refine suits_read trivial rfl ?_
    apply suits_require
    intro hnone
    exact h _ invitee ⟨found, hmem, hid⟩ (Option.isNone_iff_eq_none.mp hnone)
  cases w.store.findUserByEmail (Email.normalize email) with
  | none =>
    simp only [bind_assoc, pure_bind]
    exact hrest none
  | some user =>
    simp only [bind_assoc, pure_bind]
    refine suits_read trivial rfl ?_
    apply suits_require
    intro _
    exact hrest (some user)

theorem suits_sendInvitation (hready : w.Ready) (config : Config) (team inviter : Int)
    (email : String) (role : Role) :
    (sendInvitation config team inviter email role).Suits w := by
  unfold sendInvitation
  apply suits_checkInvitee hready
  intro address invitee hteam hnone
  apply suits_token
  intro token random
  apply suits_now
  apply suits_later
  intro expiresAt
  exact suits_write ⟨hnone, hteam⟩ fun _ _ _ => suits_finish _ _ _

theorem suits_resolveToken {α : Type} {token : Secret} {email : String}
    {f : Invitation → Program α} (h : ∀ invitation, (f invitation).Suits w) :
    (ofWork (resolveToken token email) >>= f).Suits w := by
  unfold resolveToken
  simp only [ofWork_bind, bind_assoc, ofWork_pure, pure_bind]
  refine suits_read trivial rfl ?_
  apply suits_found
  intro invitation _
  apply suits_require
  intro _
  apply suits_require
  exact fun _ => h invitation

theorem suits_expireLazily (hready : w.Ready) (invitation : Invitation) :
    (expireLazily invitation).Suits w := by
  unfold expireLazily
  apply suits_now
  refine ⟨hready.works, ?_⟩
  beta_reduce
  split
  · trivial
  · exact ⟨trivial, trivial⟩

theorem suits_acceptInvitation (hready : w.Ready) (token : Secret) (user : Int) (email : String) :
    (acceptInvitation token user email).Suits w := by
  unfold acceptInvitation
  apply suits_resolveToken
  intro invitation
  apply suits_now
  split
  · exact suits_bind (suits_expireLazily hready invitation) fun _ _ => trivial
  · exact suits_atomically (UnitOfWork.enrolMember_suits hready invitation user)
      fun _ _ => suits_finish _ _ _

theorem suits_rejectInvitation (hready : w.Ready) (token : Secret) (email : String) :
    (rejectInvitation token email).Suits w := by
  unfold rejectInvitation
  apply suits_resolveToken
  intro invitation
  apply suits_now
  refine suits_write hready.works ?_
  intro settled _ _
  apply suits_found
  exact fun _ _ => suits_finish _ _ _

theorem suits_revokeInvitation (hready : w.Ready) (invitation requester : Int) :
    (revokeInvitation invitation requester).Suits w := by
  unfold revokeInvitation revokePending
  simp only [liftM_work, ofWork_bind, bind_assoc]
  refine suits_read trivial rfl ?_
  apply suits_found
  intro found _
  apply suits_permission
  intro _
  apply suits_require
  intro _
  apply suits_now
  refine suits_write hready.works ?_
  intro settled _ _
  apply suits_found
  exact fun _ _ => suits_finish _ _ _

theorem suits_expireStaleInvitations (hready : w.Ready) (team : Option Int) :
    (expireStaleInvitations team).Suits w := by
  unfold expireStaleInvitations
  apply suits_now
  exact suits_write ⟨hready.time, hready.dated.expiries⟩ fun _ _ _ => suits_finish _ _ _

theorem suits_listTeamInvitations (hready : w.Ready) (team requester : Int)
    (status : Option InvitationStatus) (page : Page) :
    (listTeamInvitations team requester status page).Suits w := by
  unfold listTeamInvitations
  apply suits_requireTeam
  intro _ _
  apply suits_permission
  intro _
  apply suits_now
  exact suits_read hready.dated.invitations rfl trivial

theorem suits_listMyInvitations (hready : w.Ready) (email : String)
    (status : Option InvitationStatus) (page : Page) :
    (listMyInvitations email status page).Suits w := by
  unfold listMyInvitations
  apply suits_now
  exact suits_read hready.dated.invitations rfl trivial

/-! ## All calls -/

/-- Every call of a call fits the tables of a ready world. -/
theorem Call.suits (call : Call) (hready : w.Ready) : call.program.Suits w := by
  cases call with
  | membership call =>
    exact suits_bind (suits_membershipCall hready call) fun _ _ => trivial
  | act config action =>
    refine suits_bind ?_ fun _ _ => trivial
    cases action with
    | createTeam input => exact suits_createTeam config input
    | updateTeam input => exact suits_updateTeam hready input
    | deleteTeam team requester => exact suits_deleteTeam hready team requester
    | getTeam team requester => exact suits_getTeam team requester
    | listMyTeams user page => exact suits_listMyTeams hready user page
    | listMembers team requester => exact suits_listMembers hready team requester
    | updateMemberRole team target requester role =>
      exact suits_updateMemberRole team target requester role
    | removeMember team target requester => exact suits_removeMember team target requester
    | leaveTeam team user => exact suits_leaveTeam team user
    | sendInvitation team inviter email role =>
      exact suits_sendInvitation hready config team inviter email role
    | listTeamInvitations team requester status page =>
      exact suits_listTeamInvitations hready team requester status page
    | listMyInvitations email status page =>
      exact suits_listMyInvitations hready email status page
    | acceptInvitation token user email => exact suits_acceptInvitation hready token user email
    | rejectInvitation token email => exact suits_rejectInvitation hready token email
    | revokeInvitation invitation requester =>
      exact suits_revokeInvitation hready invitation requester
    | expireStaleInvitations team => exact suits_expireStaleInvitations hready team

end Roster
