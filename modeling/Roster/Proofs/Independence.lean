import Roster.Proofs.Invariant
import Roster.Proofs.Program.Confined
import Roster.Proofs.WellFormed

/-!
# Teams are independent

* `Action.Concerns`, `Call.Concerns` — what calls have to do with one team only. Answers to an
  invitation have to do with the team of the invitation, and with any team if there is no
  such invitation;
* `Call.confined` — in regular tables such a call is confined to its team;
* `Pool.teams_independent` — two calls that concern different teams come to the same, and leave
  the same, whichever is made first.

An update is confined only because it keeps the name: the slug that it writes back is then
that of the active team, and no other active team of the owner has it.
-/

namespace Roster

/-- Whether an action has to do with one team only. -/
def Action.Concerns (s : Tables) (team : Int) : Action → Prop
  | .updateMemberRole of_ _ _ _ => of_ = team
  | .removeMember of_ _ _ => of_ = team
  | .leaveTeam of_ _ => of_ = team
  | .acceptInvitation token _ _ =>
    ∀ i ∈ s.invitations, i.tokenHash = Token.hash token.plain → i.teamId = team
  | .rejectInvitation token _ =>
    ∀ i ∈ s.invitations, i.tokenHash = Token.hash token.plain → i.teamId = team
  | .revokeInvitation invitation _ => ∀ i ∈ s.invitations, i.id = invitation → i.teamId = team
  | .deleteTeam of_ _ => of_ = team
  | .updateTeam input => input.teamId = team ∧ input.name = none
  | .expireStaleInvitations of_ => of_ = some team
  | _ => False

/-- The team that a membership rule is applied to. -/
def MembershipCall.team : MembershipCall → Int
  | .get team _ => team
  | .count team => team
  | .require team _ _ => team
  | .changeRole team _ _ _ => team
  | .remove team _ _ => team
  | .leave team _ => team

/-- Whether a call has to do with one team only. -/
def Call.Concerns (s : Tables) (team : Int) : Call → Prop
  | .act _ action => action.Concerns s team
  | .membership call => call.team = team

/-- There is one invitation of an id, so all of them are of its team. -/
theorem Tables.Keyed.invitation_team {s : Tables} (hk : s.Keyed) {invitation : Invitation}
    (hmem : invitation ∈ s.invitations) :
    ∀ i ∈ s.invitations, i.id = invitation.id → i.teamId = invitation.teamId := by
  intro i hi hid
  rw [hk.invitation_eq hi hmem hid]

namespace Program

variable {α : Type} {team : Int} {w : World Tables}

/-! ## What calls share -/

/-- A program that ends with its last part. -/
theorem confined_of_bind_pure {program : Program α}
    (h : (program >>= pure).Confined team w) : program.Confined team w := by
  rwa [bind_pure] at h

/-- A last log line and a result. -/
theorem confined_finish (line : LogLine) (a : α) (w : World Tables) :
    (log line >>= fun _ => pure a).Confined team w :=
  confined_log (confined_pure a)

theorem confined_requireTeam {f : Team → Program α}
    (h : ∀ found, w.store.findTeam team = some found → (f found).Confined team w) :
    (ofWork (requireTeam team) >>= f).Confined team w := by
  unfold requireTeam
  rw [ofWork_bind, bind_assoc]
  refine confined_read (fun s => s.findTeam team) (fun _ => rfl) (w.store.findTeam_part team) ?_
  exact confined_found h

theorem confined_get {user : Int} {f : Member → Program α}
    (h : ∀ member, (f member).Confined team w) :
    (ofWork (Membership.get team user) >>= f).Confined team w := by
  unfold Membership.get
  rw [ofWork_bind, bind_assoc]
  refine confined_read (fun s => s.findMember team user) (fun _ => rfl)
    (w.store.findMember_part team user) ?_
  exact confined_found fun member _ => h member

theorem confined_permission {user : Int} {permission : Permission} {f : Member → Program α}
    (h : ∀ member, (f member).Confined team w) :
    (ofWork (Membership.require team user permission) >>= f).Confined team w := by
  unfold Membership.require
  simp only [ofWork_bind, bind_assoc, ofWork_pure, pure_bind]
  refine confined_read (fun s => s.findMember team user) (fun _ => rfl)
    (w.store.findMember_part team user) ?_
  apply confined_found
  intro member _
  apply confined_require
  exact fun _ => h member

theorem confined_count {f : UInt32 → Program α}
    (h : (f (w.store.countMembers team)).Confined team w) :
    (ofWork (Membership.count team) >>= f).Confined team w :=
  confined_read (fun s => s.countMembers team) (fun _ => rfl) (w.store.countMembers_part team) h

/-! ## Members -/

/-- Changing a role. -/
theorem confined_changeRole {target requester : Int} {role : Role} {f : Member → Program α}
    (h : ∀ changed w', (f changed).Confined team w') :
    (ofWork (Membership.changeRole team target requester role) >>= f).Confined team w := by
  unfold Membership.changeRole
  simp only [ofWork_bind, bind_assoc]
  apply confined_permission
  intro acting
  apply confined_get
  intro member
  apply confined_require
  intro _
  apply confined_require
  intro _
  apply confined_require
  intro _
  apply confined_now
  exact confined_perform (Tables.confines_setRole _ _ _ _ _) fun changed _ _ => h changed _

/-- Removing a member. -/
theorem confined_remove {target requester : Int} {f : Unit → Program α}
    (h : ∀ w', (f ()).Confined team w') :
    (ofWork (Membership.remove team target requester) >>= f).Confined team w := by
  unfold Membership.remove
  simp only [ofWork_bind, bind_assoc]
  apply confined_get
  intro member
  apply confined_require
  intro _
  split
  · rw [ofWork_bind, bind_assoc]
    apply confined_permission
    intro acting
    exact confined_perform (Tables.confines_removeMember _ _ _) fun _ _ _ => h _
  · exact confined_perform (Tables.confines_removeMember _ _ _) fun _ _ _ => h _

/-! ## Units of work -/

/-- Enrolling a user by an invitation of the team. -/
theorem confined_enrolMember (htidy : w.store.Tidy) {invitation : Invitation}
    (hmem : invitation ∈ w.store.invitations) (hteam : invitation.teamId = team) (user : Int) :
    (ofWork (UnitOfWork.enrolMember invitation user)).Confined team w := by
  subst hteam
  unfold UnitOfWork.enrolMember Membership.add
  simp only [ofWork_bind, ofWork_pure, bind_assoc]
  refine confined_read (fun s => s.findTeam invitation.teamId) (fun _ => rfl)
    (w.store.findTeam_part _) ?_
  apply confined_found
  intro team hfound
  obtain ⟨-, hid, -⟩ := Tables.findTeam_some hfound
  rw [hid]
  apply confined_count
  apply confined_require
  intro _
  apply confined_require
  intro _
  apply confined_now
  refine confined_perform (Tables.confines_addMember htidy.arranged rfl) ?_
  intro member s' hadd
  apply confined_now
  have hown : ∀ i ∈ s'.invitations, i.id = invitation.id → i.teamId = invitation.teamId := by
    obtain ⟨-, -, -, hs'⟩ := Tables.addMember_ok hadd
    rw [hs']
    exact htidy.regular.keyed.invitation_team hmem
  refine confined_perform (Tables.confines_settleInvitation hown) ?_
  intro settled _ _
  apply confined_found
  exact fun _ _ => confined_pure member

/-- Dissolving the team. -/
theorem confined_dissolveTeam (team : Int) (now : Instant) :
    (ofWork (UnitOfWork.dissolveTeam team now)).Confined team w := by
  unfold UnitOfWork.dissolveTeam
  rw [ofWork_bind]
  refine confined_perform (Tables.confines_deleteTeam _ _ _) ?_
  intro _ s' _
  apply confined_of_bind_pure
  exact confined_perform (Tables.confines_revokePending _ _) fun count _ _ => confined_pure count

end Program

open Program

variable {team : Int} {w : World Tables}

/-! ## Teams -/

/-- Giving a limit counts the members of the team. -/
theorem UpdateTeam.confined_applyLimit {α : Type} {edited : Team} (hid : edited.id = team)
    {now : Instant} {given : Option UInt32} {f : Team → Program α}
    (h : (f (given.elim edited fun limit =>
      { edited with memberLimit := limit, updatedAt := now })).Confined team w) :
    (ofWork (applyLimit edited now given) >>= f).Confined team w := by
  cases given with
  | none => exact h
  | some limit =>
    unfold applyLimit
    simp only [ofWork_bind, bind_assoc, hid]
    apply confined_count
    apply confined_require
    intro _
    by_cases hzero : limit = 0
    · simp only [Team.setMemberLimit, if_pos hzero]
      exact confined_refuse _
    · simp only [Team.setMemberLimit, if_neg hzero]
      exact h

/-- An update that keeps the name. -/
theorem confined_updateTeam (htidy : w.store.Tidy) {input : UpdateTeam}
    (hteam : input.teamId = team) (hname : input.name = none) :
    (updateTeam input).Confined team w := by
  subst hteam
  rw [UpdateTeam.updateTeam_eq]
  apply confined_requireTeam
  intro before hfound
  obtain ⟨-, hid, -⟩ := Tables.findTeam_some hfound
  unfold UpdateTeam.amend
  simp only [liftM_work, hname, UpdateTeam.applyName, ofWork_pure, pure_bind]
  rw [hid]
  apply confined_permission
  intro _
  apply confined_now
  refine UpdateTeam.confined_applyLimit (by simp [hid]) ?_
  have hconfines : w.store.Confines input.teamId (.updateTeam (input.revise none before w.clock)) := by
    refine Tables.confines_updateTeam htidy.regular ((input.revise_id none before _).trans hid) ?_
    intro stored hstored
    rw [hfound] at hstored
    cases hstored
    exact ⟨(input.revise_ownerId none before _).symm,
      (input.revise_fields none before _).2.1.symm⟩
  exact confined_perform hconfines fun written _ _ => confined_finish _ _ _

theorem confined_deleteTeam (requester : Int) : (deleteTeam team requester).Confined team w := by
  unfold deleteTeam
  apply confined_requireTeam
  intro found hfound
  obtain ⟨-, hid, -⟩ := Tables.findTeam_some hfound
  rw [hid]
  refine confined_read (fun s => s.findMember team requester) (fun _ => rfl)
    (w.store.findMember_part team requester) ?_
  apply confined_found
  intro member _
  apply confined_require
  intro _
  apply confined_now
  refine (confined_atomically (confined_dissolveTeam team _)).bind ?_
  exact fun cancelled _ => confined_finish _ _ _

/-! ## Invitations -/

/-- The invitation behind a token of the team. -/
theorem confined_resolveToken {α : Type} {token : Secret} {email : String}
    {f : Invitation → Program α}
    (hteam : ∀ i ∈ w.store.invitations, i.tokenHash = Token.hash token.plain → i.teamId = team)
    (h : ∀ invitation ∈ w.store.invitations, invitation.teamId = team →
      (f invitation).Confined team w) :
    (ofWork (resolveToken token email) >>= f).Confined team w := by
  unfold resolveToken
  simp only [ofWork_bind, bind_assoc, ofWork_pure, pure_bind]
  refine confined_read (fun s => s.findInvitationByToken (Token.hash token.plain)) (fun _ => rfl)
    (Tables.findInvitationByToken_part hteam) ?_
  apply confined_found
  intro invitation hfound
  obtain ⟨hmem, hhash⟩ := Tables.findInvitationByToken_some hfound
  apply confined_require
  intro _
  apply confined_require
  intro _
  exact h invitation hmem (hteam invitation hmem hhash)

theorem confined_acceptInvitation (htidy : w.store.Tidy) {token : Secret}
    (hteam : ∀ i ∈ w.store.invitations, i.tokenHash = Token.hash token.plain → i.teamId = team)
    (user : Int) (email : String) : (acceptInvitation token user email).Confined team w := by
  unfold acceptInvitation
  apply confined_resolveToken hteam
  intro invitation hmem hown
  apply confined_now
  split
  · -- the expiry is written down, or the failure to do so is logged
    unfold expireLazily
    rw [bind_assoc]
    apply confined_now
    subst hown
    refine confined_ask
      (Tables.confines_settleInvitation (htidy.regular.keyed.invitation_team hmem)) ?_ ?_
    · exact fun _ _ => confined_log (confined_refuse _)
    · exact fun _ _ _ => confined_refuse _
  · refine (confined_atomically (confined_enrolMember htidy hmem hown user)).bind ?_
    exact fun member _ => confined_finish _ _ _

theorem confined_rejectInvitation (htidy : w.store.Tidy) {token : Secret}
    (hteam : ∀ i ∈ w.store.invitations, i.tokenHash = Token.hash token.plain → i.teamId = team)
    (email : String) : (rejectInvitation token email).Confined team w := by
  unfold rejectInvitation
  apply confined_resolveToken hteam
  intro invitation hmem hown
  apply confined_now
  subst hown
  refine confined_perform
    (Tables.confines_settleInvitation (htidy.regular.keyed.invitation_team hmem)) ?_
  intro settled _ _
  apply confined_found
  exact fun rejected _ => confined_finish _ _ _

theorem confined_revokeInvitation (htidy : w.store.Tidy) {invitation : Int}
    (hteam : ∀ i ∈ w.store.invitations, i.id = invitation → i.teamId = team) (requester : Int) :
    (revokeInvitation invitation requester).Confined team w := by
  unfold revokeInvitation revokePending
  simp only [liftM_work, ofWork_bind, bind_assoc]
  refine confined_read (fun s => s.findInvitation invitation) (fun _ => rfl)
    (Tables.findInvitation_part hteam) ?_
  apply confined_found
  intro found hfound
  obtain ⟨hmem, hid⟩ := Tables.findInvitation_some hfound
  have hown := hteam found hmem hid
  subst hown
  apply confined_permission
  intro _
  apply confined_require
  intro _
  apply confined_now
  refine confined_perform
    (Tables.confines_settleInvitation (htidy.regular.keyed.invitation_team hmem)) ?_
  intro settled _ _
  apply confined_found
  exact fun revoked _ => confined_finish _ _ _

theorem confined_expireStaleInvitations (team : Int) :
    (expireStaleInvitations (some team)).Confined team w := by
  unfold expireStaleInvitations
  apply confined_now
  refine confined_perform (Tables.confines_expireStale _ _ _) ?_
  exact fun expired _ _ => confined_finish _ _ _

/-! ## Every call -/

theorem Action.confined (htidy : w.store.Tidy) {action : Action}
    (hconcerns : action.Concerns w.store team) (config : Config) :
    (action.program config).Confined team w := by
  cases action with
  | updateMemberRole of_ target requester role =>
    obtain rfl : of_ = team := hconcerns
    exact confined_requireTeam fun _ _ => confined_changeRole fun _ _ => confined_finish _ _ _
  | removeMember of_ target requester =>
    obtain rfl : of_ = team := hconcerns
    exact confined_requireTeam fun _ _ => confined_remove fun _ =>
      confined_of_bind_pure (confined_finish _ () _)
  | leaveTeam of_ user =>
    obtain rfl : of_ = team := hconcerns
    exact confined_requireTeam fun _ _ => confined_remove fun _ =>
      confined_of_bind_pure (confined_finish _ () _)
  | acceptInvitation token user email => exact confined_acceptInvitation htidy hconcerns user email
  | rejectInvitation token email => exact confined_rejectInvitation htidy hconcerns email
  | revokeInvitation invitation requester =>
    exact confined_revokeInvitation htidy hconcerns requester
  | deleteTeam of_ requester =>
    obtain rfl : of_ = team := hconcerns
    exact confined_deleteTeam requester
  | updateTeam input => exact confined_updateTeam htidy hconcerns.1 hconcerns.2
  | expireStaleInvitations of_ =>
    obtain rfl : of_ = some team := hconcerns
    exact confined_expireStaleInvitations team
  | _ => exact hconcerns.elim

/-- A membership rule is confined to the team that it is applied to. -/
theorem MembershipCall.confined (call : MembershipCall) : call.program.Confined call.team w := by
  cases call with
  | get team user => exact confined_of_bind_pure (confined_get fun member => confined_pure member)
  | count team => exact confined_of_bind_pure (confined_count (confined_pure _))
  | require team user permission =>
    exact confined_of_bind_pure (confined_permission fun member => confined_pure member)
  | changeRole team target requester role =>
    exact confined_of_bind_pure (confined_changeRole fun changed _ => confined_pure changed)
  | remove team target requester =>
    exact confined_of_bind_pure (confined_remove fun _ => confined_pure ())
  | leave team user => exact confined_of_bind_pure (confined_remove fun _ => confined_pure ())

/-- A call that concerns a team is confined to it. -/
theorem Call.confined (htidy : w.store.Tidy) {call : Call} (hconcerns : call.Concerns w.store team) :
    call.program.Confined team w := by
  cases call with
  | act config action => exact (action.confined htidy hconcerns config).map _
  | membership call =>
    obtain rfl : call.team = team := hconcerns
    exact call.confined.map _

/-! ## Two calls -/

/-- A call that concerns a team sends no invitations. -/
theorem Call.run_offers (hk : w.store.Keyed) {call : Call} (hconcerns : call.Concerns w.store team) :
    ∀ i ∈ (call.program.run w).world.store.invitations,
      ∃ j ∈ w.store.invitations, j.offer = i.offer := by
  intro i hi
  obtain ⟨-, ⟨hsame, -⟩ | ⟨random, hdeed⟩⟩ := call.run_deed w
  · exact ⟨i, hsame ▸ hi, rfl⟩
  · have hinv : (Rely.alone w.store w.clock).inv ⟨w.store, w.clock, random⟩ := ⟨rfl, rfl⟩
    rcases hdeed.invitation_origin (Rely.alone_orderly hk) hinv hi with
      hold | ⟨config, email, _, _, _, _, rfl, -⟩
    · exact hold
    · exact hconcerns.elim

/-- What a call concerns is decided by the offers that there are. -/
theorem Call.Concerns.of_offers {s s' : Tables} {call : Call} (h : call.Concerns s team)
    (hoffers : ∀ i ∈ s'.invitations, ∃ j ∈ s.invitations, j.offer = i.offer) :
    call.Concerns s' team := by
  have hbehind : ∀ p : Invitation → Prop, (∀ j i, j.offer = i.offer → p i → p j) →
      (∀ j ∈ s.invitations, p j → j.teamId = team) →
      ∀ i ∈ s'.invitations, p i → i.teamId = team := by
    intro p hp hown i hi hi'
    obtain ⟨j, hj, hoffer⟩ := hoffers i hi
    obtain ⟨-, hteam, -⟩ := Invitation.offer_eq hoffer
    exact hteam.symm.trans (hown j hj (hp j i hoffer hi'))
  cases call with
  | membership call => exact h
  | act config action =>
    cases action with
    | acceptInvitation | rejectInvitation =>
      refine hbehind (fun i => i.tokenHash = _) ?_ h
      intro j i hoffer hhash
      obtain ⟨-, -, -, -, hsame, -⟩ := Invitation.offer_eq hoffer
      exact hsame.trans hhash
    | revokeInvitation =>
      refine hbehind (fun i => i.id = _) ?_ h
      intro j i hoffer hid
      exact (Invitation.offer_eq hoffer).1.trans hid
    | _ => exact h

namespace Pool

/-- Whatever has happened, two calls that concern different teams come to the same results
and log lines in either order, and to the same world. -/
theorem teams_independent (clock : Instant) (random : RandomSource) (events : List Event)
    (one other : Call) (team team' : Int) (hne : team ≠ team')
    (hone : one.Concerns ((start clock random).run events).world.store team)
    (hother : other.Concerns ((start clock random).run events).world.store team') :
    let w := ((start clock random).run events).world
    let oneFirst := one.program.run w
    let otherSecond := other.program.run oneFirst.world
    let otherFirst := other.program.run w
    let oneSecond := one.program.run otherFirst.world
    oneSecond.result = oneFirst.result ∧ oneSecond.log = oneFirst.log ∧
      otherSecond.result = otherFirst.result ∧ otherSecond.log = otherFirst.log ∧
      otherSecond.world = oneSecond.world := by
  intro w oneFirst otherSecond otherFirst oneSecond
  have htidy : w.store.Tidy := start_tidy clock random events
  have htidyOne : oneFirst.world.store.Tidy := Tables.tidy_invariant.program _ htidy
  have htidyOther : otherFirst.world.store.Tidy := Tables.tidy_invariant.program _ htidy
  -- each call still concerns its team when the other one has been made
  have hotherLater := hother.of_offers (one.run_offers htidy.regular.keyed hone)
  have honeLater := hone.of_offers (other.run_offers htidy.regular.keyed hother)
  have hconfined := one.confined htidy hone
  have hconfined' := other.confined htidy hother
  have hlater := one.confined htidyOther honeLater
  have hlater' := other.confined htidyOne hotherLater
  -- and its team is as it was
  obtain ⟨hresult, hlog, hpart⟩ := hlater.agree hconfined (hconfined'.others team hne)
  obtain ⟨hresult', hlog', hpart'⟩ := hlater'.agree hconfined' (hconfined.others team' hne.symm)
  refine ⟨hresult, hlog, hresult', hlog', ?_⟩
  refine World.eq_of_part (Tables.tidy_invariant.program _ htidyOne).arranged
    (Tables.tidy_invariant.program _ htidyOther).arranged ?_
  intro third
  by_cases hthird : third = team
  · subst hthird
    exact (hlater'.others third hne).trans hpart.symm
  by_cases hthird' : third = team'
  · subst hthird'
    exact hpart'.trans (hlater.others third hne.symm).symm
  -- what is of neither team stays
  have hfirst := (hlater'.others third hthird').trans (hconfined.others third hthird)
  have hsecond := (hlater.others third hthird).trans (hconfined'.others third hthird')
  exact hfirst.trans hsecond.symm

/-- An owner has two teams, and the first of them has invited a user. -/
def twoTeams : List Event :=
  let act (action : Action) : Event := .begins (.act .default action)
  let steps (i count : Nat) : List Event := List.replicate count (.proceeds i)
  let create (name : String) : Action := .createTeam
    { ownerId := 7
      name
      description := none
      visibility := .everyone
      memberLimit := none }
  .insertUser "ann@example.org" "Ann" :: act (create "Core") :: steps 0 4 ++
  act (create "Crew") :: steps 1 4 ++
  act (.sendInvitation 1 7 "ann@example.org" .member) :: steps 2 10

/-- The user accepts. -/
def annJoins : Call :=
  .act .default (.acceptInvitation ⟨(RandomSource.sequence.token 32).1⟩ 1 "ann@example.org")

/-- The owner changes the limit of the second team. -/
def crewGrows : Call :=
  .act .default (.updateTeam
    { teamId := 2
      requesterId := 7
      name := none
      description := none
      visibility := none
      memberLimit := some 9 })

theorem teams_independent_of_two_teams :
    let w := ((start .epoch .sequence).run twoTeams).world
    let annFirst := annJoins.program.run w
    let crewFirst := crewGrows.program.run w
    annFirst.result.isOk = true ∧ crewFirst.result.isOk = true ∧
      (annJoins.program.run crewFirst.world).result = annFirst.result ∧
      (crewGrows.program.run annFirst.world).result = crewFirst.result ∧
      (crewGrows.program.run annFirst.world).world =
        (annJoins.program.run crewFirst.world).world := by
  intro w annFirst crewFirst
  have hchecked : (∀ i ∈ ((start .epoch .sequence).run twoTeams).world.store.invitations,
        i.teamId = 1) ∧
      (annJoins.program.run ((start .epoch .sequence).run twoTeams).world).result.isOk = true ∧
      (crewGrows.program.run ((start .epoch .sequence).run twoTeams).world).result.isOk = true := by
    decide +kernel
  obtain ⟨hteams, hann, hcrew⟩ := hchecked
  obtain ⟨hsame, -, hsame', -, hworld⟩ :=
    teams_independent .epoch .sequence twoTeams annJoins crewGrows 1 2 (by decide)
      (fun i hi _ => hteams i hi) ⟨rfl, rfl⟩
  exact ⟨hann, hcrew, hsame, hsame', hworld⟩

end Pool

end Roster
