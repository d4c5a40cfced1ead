import Roster.Proofs.Deed.Teams
import Roster.Proofs.Tables.Writes

/-!
# Calls keep to their deeds: invitations

Sending creates an invitation after its checks. An answer by token resolves the
token first and settles the invitation afterwards, and a settlement that comes
too late is no deed.

* `Call.abides` — every call keeps to its deeds, from any world and whatever
  others do.
-/

namespace Roster

open Program

variable {rely : Rely}

/-! ## Sending -/

/-- The checks on the invitee fail, or the address was seen to be nobody's who
is a member. -/
theorem serves_checkInvitee {α : Type} {call : Call} {toAnswer : α → Answer}
    {team inviter : Int} {email : String} {role : Role}
    {f : String × Option User → Program α}
    (h : ∀ member found invitee seen,
      member.role.allows .invite = true → role.isInvitable = true →
      member.role.mayAssign role = true → Email.validate (Email.normalize email) = .ok () →
      (fun v : World Tables => v.store.findMember team inviter = some member) ∈ seen →
      (fun v : World Tables => v.store.findTeam team = some found) ∈ seen →
      (∃ count, count < found.memberLimit ∧
        (fun v : World Tables => v.store.countMembers team = count) ∈ seen) →
      (fun v : World Tables => v.store.findUserByEmail (Email.normalize email) = invitee) ∈ seen →
      (∀ user, invitee = some user →
        (fun v : World Tables => v.store.findMember team user.id = none) ∈ seen) →
      (f (Email.normalize email, invitee)).Serves rely call toAnswer seen) :
    (checkInvitee team inviter email role >>= f).Serves rely call toAnswer [] := by
  unfold checkInvitee
  simp only [liftM_work, bind_assoc, Membership.count]
  apply serves_require
  intro member hallows
  apply serves_check
  intro hinvitable
  apply serves_check
  intro hassign
  apply serves_requireTeam
  intro found
  refine knowing_read (fun _ => rfl) ?_
  intro count
  apply serves_check
  intro hroom
  apply serves_input
  intro _ haddress
  apply knowing_userByEmail
  intro invitee
  rw [decide_eq_true_eq] at hroom
  cases invitee with
  | none =>
    simp only [bind_assoc, pure_bind]
    refine knowing_read (fun _ => rfl) ?_
    intro outstanding
    apply serves_check
    intro _
    refine h member found none _ hallows hinvitable hassign haddress ?_ ?_
      ⟨count, hroom, ?_⟩ ?_ ?stranger
    case stranger =>
      intro user huser
      exact absurd huser.symm (Option.some_ne_none user)
    all_goals simp only [List.mem_cons, true_or, or_true]
  | some user =>
    simp only [bind_assoc, pure_bind]
    refine knowing_read (fun _ => rfl) ?_
    intro known
    apply serves_check
    intro hknown
    refine knowing_read (fun _ => rfl) ?_
    intro outstanding
    apply serves_check
    intro _
    rw [Option.isNone_iff_eq_none] at hknown
    subst hknown
    refine h member found (some user) _ hallows hinvitable hassign haddress ?_ ?_
      ⟨count, hroom, ?_⟩ ?_ ?stranger
    case stranger =>
      intro user' huser
      cases huser
      simp only [List.mem_cons, true_or, or_true]
    all_goals simp only [List.mem_cons, true_or, or_true]

theorem serves_sendInvitation (config : Config) (team inviter : Int) (email : String)
    (role : Role) :
    (sendInvitation config team inviter email role).Serves rely
      (.act config (.sendInvitation team inviter email role)) .sent [] := by
  unfold sendInvitation
  simp only [liftM_work]
  apply serves_checkInvitee
  intro member found invitee seen hallows hinvitable hassign haddress hmember hfound hroom
    hinvitee hstranger
  obtain ⟨count, hlt, hcount⟩ := hroom
  apply knowing_token
  intro token
  apply knowing_now
  intro now
  refine knowing_later (fun _ _ => .inr ⟨.timeOverflow, rfl⟩) ?_
  intro expiresAt hexpires
  apply serves_write
  intro w invitation s hseen hwrite
  simp only [List.forall_mem_cons] at hseen
  obtain ⟨hdated, hdrawn, hseen⟩ := hseen
  have hsending : Sending rely config team inviter email role invitee token now expiresAt w s
      invitation :=
    { permitted := (hseen _ hmember).imp fun v hv => ⟨member, hv, hallows, hassign⟩
      invitable := hinvitable
      room := ⟨found, hseen _ hfound, (hseen _ hcount).imp fun v hv => hv ▸ hlt⟩
      address := haddress
      invited := hseen _ hinvitee
      stranger := fun user huser => hseen _ (hstranger user huser)
      drawn := hdrawn
      dated := hdated
      expires := hexpires
      written := hwrite }
  exact ⟨.ok _, rfl, .sends hsending rfl⟩

/-! ## Answers by token -/

/-- Resolving a token fails, or it and the address were seen to name a pending
invitation. -/
theorem serves_resolveToken {α : Type} {call : Call} {toAnswer : α → Answer} {token : Secret}
    {email : String} {f : Invitation → Program α}
    (h : ∀ invitation, invitation.isFor email = true → invitation.isPending = true →
      (f invitation).Serves rely call toAnswer
        [fun v => v.store.findInvitationByToken (Token.hash token.plain) = some invitation]) :
    (ofWork (resolveToken token email) >>= f).Serves rely call toAnswer [] := by
  unfold resolveToken
  simp only [ofWork_bind, bind_assoc, ofWork_pure, pure_bind]
  refine knowing_read (fun _ => rfl) ?_
  intro found
  apply serves_found
  intro invitation hfound
  apply serves_check
  intro haddressee
  apply serves_check
  intro hpending
  subst hfound
  exact h invitation haddressee hpending

/-- Settling an invitation fails, comes too late, or moves it. -/
theorem serves_settle {α : Type} {call : Call} {toAnswer : α → Answer} {id : Int}
    {status : InvitationStatus} {now : Instant} {e : TeamError} {f : Invitation → Program α}
    {seen : List (World Tables → Prop)}
    (h : ∀ w settled s, (∀ fact ∈ seen, rely.Seen w fact) →
      w.store.settleInvitation id status now = .ok (some settled, s) →
      ∃ result, (f settled).outcome? = some result ∧ call.Deed rely w s (result.map toAnswer)) :
    (ofWork (Work.perform (.settleInvitation id status now)) >>= fun settled =>
      ofWork (Work.found e settled) >>= f).Serves rely call toAnswer seen := by
  refine knowing_write (fun _ => serves_refuse _) ?_
  intro w reply s _ hseen hwrite
  cases reply with
  | none => exact .inl ⟨Tables.settleInvitation_none hwrite, serves_refuse e⟩
  | some settled => exact .inr (h w settled s hseen hwrite)

theorem serves_rejectInvitation (config : Config) (token : Secret) (email : String) :
    (rejectInvitation token email).Serves rely (.act config (.rejectInvitation token email))
      .invitation [] := by
  unfold rejectInvitation
  simp only [liftM_work]
  apply serves_resolveToken
  intro invitation haddressee hpending
  apply knowing_now
  intro now
  apply serves_settle
  intro w rejected s hseen hwrite
  simp only [List.forall_mem_cons] at hseen
  have hrejection : Rejection rely token email invitation w s rejected :=
    { presented := ⟨hseen.2.1, haddressee, hpending⟩
      written := ⟨now, hwrite⟩ }
  exact ⟨.ok rejected, rfl, .rejects hrejection⟩

/-- Past its expiry an invitation is refused; that this is written down is the
only deed. -/
theorem serves_expireLazily (config : Config) (token : Secret) (user : Int) (email : String)
    (invitation : Invitation) {seen : List (World Tables → Prop)}
    (h : ∀ w, (∀ fact ∈ seen, rely.Seen w fact) → Presented rely token email w invitation ∧
      rely.Seen w fun v => invitation.isExpiredAt v.clock = true) :
    (expireLazily invitation >>= fun _ => refuse (.invitationExpired invitation.id)).Serves rely
      (.act config (.acceptInvitation token user email)) .member seen := by
  unfold expireLazily
  simp only [liftM_work, bind_assoc]
  apply knowing_now
  intro now
  apply knowing_call
  · intro e
    exact knowing_log (serves_refuse _)
  · intro w reply s _ hseen hwrite
    obtain ⟨-, hseen⟩ := List.forall_mem_cons.mp hseen
    obtain ⟨hpresented, hexpired⟩ := h w hseen
    cases reply with
    | none => exact .inl ⟨Tables.settleInvitation_none hwrite, serves_refuse _⟩
    | some lapsed =>
      have hlapse : Lapse rely token email invitation w s :=
        { presented := hpresented
          expired := hexpired
          written := ⟨now, lapsed, hwrite⟩ }
      exact .inr ⟨.error (.error (.invitationExpired invitation.id)), rfl, .lapses hlapse⟩

theorem serves_acceptInvitation (config : Config) (token : Secret) (user : Int)
    (email : String) :
    (acceptInvitation token user email).Serves rely
      (.act config (.acceptInvitation token user email)) .member [] := by
  unfold acceptInvitation
  simp only [liftM_work]
  apply serves_resolveToken
  intro invitation haddressee hpending
  apply knowing_now
  intro now
  by_cases hexpired : invitation.isExpiredAt now = true
  · -- the expiry is written down, and the call fails with it all the same
    rw [if_pos hexpired]
    refine serves_expireLazily config token user email invitation ?_
    intro w hseen
    simp only [List.forall_mem_cons] at hseen
    exact ⟨⟨hseen.2.1, haddressee, hpending⟩, hseen.1.imp fun v hv => hv ▸ hexpired⟩
  · -- whoever settled it meanwhile makes the whole unit fail
    rw [if_neg hexpired]
    apply serves_atomically
    intro w member hseen hresult
    simp only [List.forall_mem_cons] at hseen
    obtain ⟨team, joined, accepted, hteam, hroom, hrole, hadd, hsettle⟩ :=
      UnitOfWork.enrolMember_gives.mp ⟨hresult, rfl⟩
    have hacceptance : Acceptance rely token user email invitation w _ member :=
      { presented := ⟨hseen.2.1, haddressee, hpending⟩
        unexpired := hseen.1.imp fun v hv => by simpa [hv] using hexpired
        role_ne := hrole
        written := ⟨team, joined, accepted, hteam, hroom, hadd, hsettle⟩ }
    exact ⟨.ok member, rfl, .accepts hacceptance⟩

/-! ## Withdrawals -/

theorem serves_revokeInvitation (config : Config) (id requester : Int) :
    (revokeInvitation id requester).Serves rely (.act config (.revokeInvitation id requester))
      .invitation [] := by
  unfold revokeInvitation revokePending
  simp only [liftM_work, ofWork_bind, bind_assoc]
  refine knowing_read (fun _ => rfl) ?_
  intro found
  apply serves_found
  intro invitation hfound
  apply serves_require
  intro member hallows
  apply serves_check
  intro hpending
  apply knowing_now
  intro now
  apply serves_settle
  intro w revoked s hseen hwrite
  simp only [List.forall_mem_cons] at hseen
  subst hfound
  have hrevocation : Revocation rely id requester invitation w s revoked :=
    { found := hseen.2.2.1
      permitted := hseen.2.1.imp fun v hv => ⟨member, hv, hallows⟩
      pending := hpending
      written := ⟨now, hwrite⟩ }
  exact ⟨.ok revoked, rfl, .revokes hrevocation⟩

theorem serves_expireStaleInvitations (config : Config) (team : Option Int) :
    (expireStaleInvitations team).Serves rely (.act config (.expireStaleInvitations team))
      .count [] := by
  unfold expireStaleInvitations
  simp only [liftM_work]
  apply knowing_now
  intro now
  apply serves_write
  intro w count s hseen hwrite
  simp only [List.forall_mem_cons] at hseen
  have hsweep : Sweep rely team now w s count := ⟨hseen.1, Except.ok.inj hwrite⟩
  exact ⟨.ok count, rfl, .sweeps hsweep⟩

/-! ## All calls -/

/-- Every action serves its call. -/
theorem serves_action (config : Config) (action : Action) :
    (action.program config).Serves rely (.act config action) action.answer [] := by
  cases action with
  | createTeam input => exact serves_createTeam config input
  | updateTeam input => exact serves_updateTeam config input
  | deleteTeam team requester => exact serves_deleteTeam config team requester
  | getTeam team requester => exact serves_getTeam config team requester
  | listMyTeams user page => exact serves_listMyTeams config user page
  | listMembers team requester => exact serves_listMembers config team requester
  | updateMemberRole team target requester role =>
    exact serves_updateMemberRole config team target requester role
  | removeMember team target requester => exact serves_removeMember config team target requester
  | leaveTeam team user => exact serves_leaveTeam config team user
  | sendInvitation team inviter email role =>
    exact serves_sendInvitation config team inviter email role
  | listTeamInvitations team requester status page =>
    exact serves_listTeamInvitations config team requester status page
  | listMyInvitations email status page => exact serves_listMyInvitations config email status page
  | acceptInvitation token user email => exact serves_acceptInvitation config token user email
  | rejectInvitation token email => exact serves_rejectInvitation config token email
  | revokeInvitation id requester => exact serves_revokeInvitation config id requester
  | expireStaleInvitations team => exact serves_expireStaleInvitations config team

/-- Every call keeps to its deeds. -/
theorem Call.abides (call : Call) {w : World Tables} (hinv : rely.inv w) :
    call.program.Abides rely (call.Deed rely) (fun _ => call.Quiet) w := by
  cases call with
  | act config action => exact Abides.map ((serves_action config action).abides hinv)
  | membership call => exact Abides.map ((serves_membershipCall call).abides hinv)

end Roster
