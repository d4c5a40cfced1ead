import Roster.Proofs.Secrecy.Alike

/-!
# Calls show no digests

Every call runs alike in alike worlds, and two calls that present tokens with
corresponding digests run alike too.

* `Answer.conceal` — an answer without digests, tokens and acceptance links;
* `Answer.Alike` — two answers that are equal but for these, with
  corresponding tokens if they carry any;
* `Call.Counterpart` — the same call, but for the token that it presents;
* `Call.Counterpart.alike` — counterparts run alike.
-/

namespace Roster

/-! ## Answers without secrets -/

/-- The listed invitation without its digest. -/
def InvitationView.conceal (view : InvitationView) : InvitationView :=
  { view with invitation := view.invitation.conceal }

/-- The issued invitation without digest and token; whether there is a link stays. -/
def SentInvitation.conceal (sent : SentInvitation) : SentInvitation :=
  ⟨sent.invitation.conceal, ⟨""⟩, sent.acceptUrl.map fun _ => ⟨""⟩⟩

namespace Answer

/-- The answer without digests, tokens and links. Answers of whole batches, which no
call gives, stay as they are. -/
def conceal : Answer → Answer
  | .invitation i => .invitation i.conceal
  | .foundInvitation i => .foundInvitation (i.map (·.conceal))
  | .invitations l => .invitations (l.map (·.conceal))
  | .views l => .views (l.map (·.conceal))
  | .sent s => .sent s.conceal
  | answer => answer

/-- The invitation and the token that an answer issues. -/
def issued? : Answer → Option (Int × String)
  | .sent s => some (s.invitation.id, s.token.plain)
  | _ => none

/-- Two issued tokens are of the same invitation and have corresponding digests. -/
def SameIssue (K : String → String → Prop) (x y : Int × String) : Prop :=
  x.1 = y.1 ∧ K (Token.hash x.2) (Token.hash y.2)

/-- Two answers are equal but for secrets, and what they issue corresponds. -/
structure Alike (K : String → String → Prop) (a b : Answer) : Prop where
  concealed : a.conceal = b.conceal
  issued : Option.Rel (SameIssue K) a.issued? b.issued?

/-- Answers without tokens are alike if they are equal but for digests. -/
theorem Alike.of_conceal {K : String → String → Prop} {a b : Answer}
    (h : a.conceal = b.conceal) (ha : a.issued? = none) (hb : b.issued? = none) : a.Alike K b :=
  ⟨h, by rw [ha, hb]; exact .none⟩

end Answer

namespace Program

variable {K : String → String → Prop}

theorem Alike.map {α β : Type} {R : α → α → Prop} {S : β → β → Prop} {p q : Program α}
    {f g : α → β} (h : p.Alike K R q) (hfg : ∀ a b, R a b → S (f a) (g b)) :
    (p.map f).Alike K S (q.map g) := by
  rw [map_eq, map_eq]
  exact h.bind fun a b hab => alike_pure (hfg a b hab)

/-- A blind program whose replies carry no secret answers alike. -/
theorem Blind.answers {α : Type} {p : Program α} {f : α → Answer} (h : p.Blind K)
    (hissued : ∀ a, (f a).issued? = none) : (p.map f).Alike K (Answer.Alike K) (p.map f) := by
  apply h.map
  rintro a _ rfl
  exact .of_conceal rfl (hissued a) (hissued a)

/-! ## Teams and members -/

theorem blind_requireTeam (team : Int) : (ofWork (requireTeam team)).Blind K := by
  unfold requireTeam
  rw [ofWork_bind]
  refine (blind_perform rfl fun _ => rfl).bind fun found => ?_
  exact blind_found _ found

theorem blind_get (team user : Int) : (ofWork (Membership.get team user)).Blind K := by
  unfold Membership.get
  rw [ofWork_bind]
  refine (blind_perform rfl fun _ => rfl).bind fun member => ?_
  exact blind_found _ member

theorem blind_permission (team user : Int) (permission : Permission) :
    (ofWork (Membership.require team user permission)).Blind K := by
  unfold Membership.require
  simp only [ofWork_bind]
  refine (blind_perform rfl fun _ => rfl).bind fun found => ?_
  refine (blind_found _ found).bind fun member => ?_
  refine (blind_require _ _).bind fun _ => ?_
  exact blind_pure member

theorem blind_count (team : Int) : (ofWork (Membership.count team)).Blind K :=
  blind_perform rfl fun _ => rfl

theorem blind_changeRole (team target requester : Int) (role : Role) :
    (ofWork (Membership.changeRole team target requester role)).Blind K := by
  unfold Membership.changeRole
  simp only [ofWork_bind]
  refine (blind_permission team requester _).bind fun acting => ?_
  refine (blind_get team target).bind fun member => ?_
  refine (blind_require _ _).bind fun _ => ?_
  refine (blind_require _ _).bind fun _ => ?_
  refine (blind_require _ _).bind fun _ => ?_
  refine blind_now.bind fun now => ?_
  exact blind_perform rfl fun _ => rfl

theorem blind_remove (team target requester : Int) :
    (ofWork (Membership.remove team target requester)).Blind K := by
  unfold Membership.remove
  simp only [ofWork_bind]
  refine (blind_get team target).bind fun member => ?_
  refine (blind_require _ _).bind fun _ => ?_
  split
  · rw [ofWork_bind]
    refine (blind_permission team requester _).bind fun _ => ?_
    exact blind_perform rfl fun _ => rfl
  · exact blind_perform rfl fun _ => rfl

theorem blind_foundTeam (draft : TeamDraft) : (ofWork (UnitOfWork.foundTeam draft)).Blind K := by
  unfold UnitOfWork.foundTeam Membership.addOwner
  simp only [ofWork_bind]
  refine (blind_perform rfl fun _ => rfl).bind fun team => ?_
  refine (blind_perform rfl fun _ => rfl).bind fun _ => ?_
  exact blind_pure team

theorem blind_dissolveTeam (team : Int) (now : Instant) :
    (ofWork (UnitOfWork.dissolveTeam team now)).Blind K := by
  unfold UnitOfWork.dissolveTeam
  rw [ofWork_bind]
  refine (blind_perform rfl fun _ => rfl).bind fun _ => ?_
  exact blind_perform rfl fun _ => rfl

theorem blind_createTeam (config : Config) (input : CreateTeam) :
    (createTeam config input).Blind K := by
  unfold createTeam
  simp only [liftM_work]
  refine (blind_ofInput _).bind fun name => ?_
  refine (blind_require _ _).bind fun _ => ?_
  refine (blind_perform rfl fun _ => rfl).bind fun other => ?_
  refine (blind_require _ _).bind fun _ => ?_
  refine blind_now.bind fun now => ?_
  refine (blind_atomically (blind_foundTeam _)).bind fun team => ?_
  refine (blind_log _).bind fun _ => ?_
  exact blind_pure team

theorem blind_applyName (team : Team) (now : Instant) (name : Option String) :
    (ofWork (UpdateTeam.applyName team now name)).Blind K := by
  cases name with
  | none => exact blind_pure team
  | some name =>
    unfold UpdateTeam.applyName
    simp only [ofWork_bind]
    refine (blind_ofInput _).bind fun name => ?_
    refine (blind_perform rfl fun _ => rfl).bind fun other => ?_
    refine (blind_require _ _).bind fun _ => ?_
    exact blind_pure _

theorem blind_applyLimit (team : Team) (now : Instant) (limit : Option UInt32) :
    (ofWork (UpdateTeam.applyLimit team now limit)).Blind K := by
  cases limit with
  | none => exact blind_pure team
  | some limit =>
    unfold UpdateTeam.applyLimit
    simp only [ofWork_bind]
    refine (blind_count team.id).bind fun current => ?_
    refine (blind_require _ _).bind fun _ => ?_
    cases team.setMemberLimit limit now with
    | ok limited => exact blind_pure limited
    | error e => exact alike_refuse e

theorem blind_updateTeam (input : UpdateTeam) : (updateTeam input).Blind K := by
  unfold updateTeam UpdateTeam.apply
  simp only [liftM_work, ofWork_bind, bind_assoc]
  refine (blind_requireTeam input.teamId).bind fun team => ?_
  refine (blind_permission team.id input.requesterId _).bind fun _ => ?_
  refine blind_now.bind fun now => ?_
  refine (blind_applyName team now input.name).bind fun renamed => ?_
  refine (blind_applyLimit _ now input.memberLimit).bind fun limited => ?_
  refine (blind_perform rfl fun _ => rfl).bind fun written => ?_
  refine (blind_log _).bind fun _ => ?_
  exact blind_pure written

theorem blind_deleteTeam (team requester : Int) : (deleteTeam team requester).Blind K := by
  unfold deleteTeam
  simp only [liftM_work]
  refine (blind_requireTeam team).bind fun found => ?_
  refine (blind_perform rfl fun _ => rfl).bind fun member => ?_
  refine (blind_found _ member).bind fun member => ?_
  refine (blind_require _ _).bind fun _ => ?_
  refine blind_now.bind fun now => ?_
  refine (blind_atomically (blind_dissolveTeam team now)).bind fun cancelled => ?_
  refine (blind_log _).bind fun _ => ?_
  exact blind_pure cancelled

theorem blind_getTeam (team requester : Int) : (getTeam team requester).Blind K := by
  unfold getTeam
  simp only [liftM_work]
  refine (blind_requireTeam team).bind fun found => ?_
  refine (blind_permission found.id requester _).bind fun _ => ?_
  exact blind_pure found

theorem blind_withRoles (user : Int) (teams : List Team) :
    (ofWork (withRoles user teams)).Blind K := by
  induction teams with
  | nil => exact blind_pure []
  | cons team rest ih =>
    unfold withRoles
    simp only [ofWork_bind]
    refine (blind_perform rfl fun _ => rfl).bind fun member => ?_
    refine ih.bind fun listed => ?_
    exact blind_pure _

theorem blind_listMyTeams (user : Int) (page : Page) : (listMyTeams user page).Blind K := by
  unfold listMyTeams
  simp only [liftM_work]
  refine (blind_perform rfl fun _ => rfl).bind fun teams => ?_
  exact blind_withRoles user teams

theorem blind_listMembers (team requester : Int) : (listMembers team requester).Blind K := by
  unfold listMembers
  simp only [liftM_work]
  refine (blind_requireTeam team).bind fun _ => ?_
  refine (blind_permission team requester _).bind fun _ => ?_
  exact blind_perform rfl fun _ => rfl

theorem blind_updateMemberRole (team target requester : Int) (role : Role) :
    (updateMemberRole team target requester role).Blind K := by
  unfold updateMemberRole
  simp only [liftM_work]
  refine (blind_requireTeam team).bind fun _ => ?_
  refine (blind_changeRole team target requester role).bind fun member => ?_
  refine (blind_log _).bind fun _ => ?_
  exact blind_pure member

theorem blind_removeMember (team target requester : Int) :
    (removeMember team target requester).Blind K := by
  unfold removeMember
  simp only [liftM_work]
  refine (blind_requireTeam team).bind fun _ => ?_
  refine (blind_remove team target requester).bind fun _ => ?_
  exact blind_log _

theorem blind_leaveTeam (team user : Int) : (leaveTeam team user).Blind K := by
  unfold leaveTeam Membership.leave
  simp only [liftM_work]
  refine (blind_requireTeam team).bind fun _ => ?_
  refine (blind_remove team user user).bind fun _ => ?_
  exact blind_log _

/-! ## Invitations -/

/-- Only whether an invitation is outstanding is asked. -/
theorem blind_outstanding {α : Type} (team : Int) (email : String) (e : TeamError) (a : α) :
    (ofWork (Work.perform (.findPendingInvitation team email)) >>= fun outstanding =>
      ofWork (Work.require outstanding.isNone e) >>= fun _ => pure a).Blind K := by
  refine (alike_perform_blind rfl).bind fun outstanding outstanding' h => ?_
  replace h : outstanding.map (·.conceal) = outstanding'.map (·.conceal) := h
  have hnone := congrArg Option.isNone h
  rw [Option.isNone_map, Option.isNone_map] at hnone
  rw [hnone]
  refine (blind_require _ _).bind fun _ => ?_
  exact blind_pure a

theorem blind_checkInvitee (team inviter : Int) (email : String) (role : Role) :
    (checkInvitee team inviter email role).Blind K := by
  unfold checkInvitee
  simp only [liftM_work]
  refine (blind_permission team inviter _).bind fun member => ?_
  refine (blind_require _ _).bind fun _ => ?_
  refine (blind_require _ _).bind fun _ => ?_
  refine (blind_requireTeam team).bind fun found => ?_
  refine (blind_count team).bind fun count => ?_
  refine (blind_require _ _).bind fun _ => ?_
  refine (blind_ofInput _).bind fun _ => ?_
  refine (blind_userByEmail _).bind fun invitee => ?_
  cases invitee with
  | none => exact blind_outstanding team _ _ _
  | some user =>
    refine (blind_perform rfl fun _ => rfl).bind fun known => ?_
    refine (blind_require _ _).bind fun _ => ?_
    exact blind_outstanding team _ _ _

/-- What is sent differs in the token, and in what is made from it. -/
theorem alike_sendInvitation (hK : Relator.BiUnique K) (config : Config) (team inviter : Int)
    (email : String) (role : Role) :
    (sendInvitation config team inviter email role).Alike K
      (fun a b => a.conceal = b.conceal ∧
        K (Token.hash a.token.plain) (Token.hash b.token.plain))
      (sendInvitation config team inviter email role) := by
  unfold sendInvitation
  simp only [liftM_work]
  refine (blind_checkInvitee team inviter email role).bind fun ⟨email, invitee⟩ => ?_
  refine (alike_token _).bind fun x y _ => ?_
  refine blind_now.bind fun now => ?_
  refine (blind_later now config.expiry).bind fun expiresAt => ?_
  refine (alike_createInvitation hK (.mk team inviter email (invitee.map (·.id)) role "" expiresAt now)
    (Token.hash x) (Token.hash y)).bind ?_
  rintro i j ⟨hconcealed, htokens⟩
  obtain ⟨digest, rfl⟩ := Invitation.eq_of_conceal hconcealed
  refine (blind_log _).bind fun _ => ?_
  refine alike_pure ⟨?_, htokens⟩
  simp only [SentInvitation.conceal, hconcealed, Config.acceptUrl, Option.map_map]
  rfl

/-- Tokens with corresponding digests name the same invitation, if any. -/
theorem alike_resolveToken (hK : Relator.BiUnique K) {x y : Secret}
    (hxy : K (Token.hash x.plain) (Token.hash y.plain)) (email : String) :
    (ofWork (resolveToken x email)).Alike K (fun i j => i.conceal = j.conceal)
      (ofWork (resolveToken y email)) := by
  unfold resolveToken
  simp only [ofWork_bind]
  refine (alike_findInvitationByToken hK hxy).bind fun found found' hfound => ?_
  refine (alike_found _ hfound).bind fun i j hij => ?_
  obtain ⟨digest, rfl⟩ := Invitation.eq_of_conceal hij
  refine (blind_require _ _).bind fun _ => ?_
  refine (blind_require _ _).bind fun _ => ?_
  exact alike_pure hij

theorem alike_rejectInvitation (hK : Relator.BiUnique K) {x y : Secret}
    (hxy : K (Token.hash x.plain) (Token.hash y.plain)) (email : String) :
    (rejectInvitation x email).Alike K (fun i j => i.conceal = j.conceal)
      (rejectInvitation y email) := by
  unfold rejectInvitation
  simp only [liftM_work]
  refine (alike_resolveToken hK hxy email).bind fun i j hij => ?_
  obtain ⟨digest, rfl⟩ := Invitation.eq_of_conceal hij
  refine blind_now.bind fun now => ?_
  refine (alike_perform_blind rfl).bind fun settled settled' h => ?_
  refine (alike_found _ h).bind fun i j hij => ?_
  obtain ⟨digest, rfl⟩ := Invitation.eq_of_conceal hij
  refine (blind_log _).bind fun _ => ?_
  exact alike_pure hij

/-- Writing an expiry down asks for the invitation by its id. -/
theorem alike_expireLazily {i j : Invitation} (hij : i.conceal = j.conceal) :
    (expireLazily i).Alike K Eq (expireLazily j) := by
  obtain ⟨digest, rfl⟩ := Invitation.eq_of_conceal hij
  unfold expireLazily
  simp only [liftM_work]
  refine blind_now.bind fun now => ?_
  apply alike_ask_blind rfl
  intro r r' h
  cases h with
  | ok _ => exact blind_pure ()
  | error e => exact blind_log _

/-- Enrolment goes by the id, the team and the role of an invitation. -/
theorem alike_enrolMember {i j : Invitation} (hij : i.conceal = j.conceal) (user : Int) :
    (ofWork (UnitOfWork.enrolMember i user)).Alike K Eq
      (ofWork (UnitOfWork.enrolMember j user)) := by
  obtain ⟨digest, rfl⟩ := Invitation.eq_of_conceal hij
  unfold UnitOfWork.enrolMember Membership.add
  simp only [ofWork_bind]
  refine (blind_perform rfl fun _ => rfl).bind fun team => ?_
  refine (blind_found _ team).bind fun team => ?_
  refine (blind_count team.id).bind fun count => ?_
  refine (blind_require _ _).bind fun _ => ?_
  refine Blind.bind ?added fun member => ?_
  case added =>
    refine (blind_require _ _).bind fun _ => ?_
    refine blind_now.bind fun now => ?_
    exact blind_perform rfl fun _ => rfl
  refine blind_now.bind fun now => ?_
  refine (alike_perform_blind rfl).bind fun settled settled' h => ?_
  refine (alike_found _ h).bind fun _ _ _ => ?_
  exact blind_pure member

theorem alike_acceptInvitation (hK : Relator.BiUnique K) {x y : Secret}
    (hxy : K (Token.hash x.plain) (Token.hash y.plain)) (user : Int) (email : String) :
    (acceptInvitation x user email).Alike K Eq (acceptInvitation y user email) := by
  unfold acceptInvitation
  simp only [liftM_work]
  refine (alike_resolveToken hK hxy email).bind fun i j hij => ?_
  have hid : i.id = j.id := (congrArg Invitation.id hij :)
  have hexpiry : ∀ now, i.isExpiredAt now = j.isExpiredAt now :=
    fun now => (congrArg (Invitation.isExpiredAt · now) hij :)
  refine blind_now.bind fun now => ?_
  rw [hexpiry now, hid]
  by_cases hexpired : j.isExpiredAt now = true
  · simp only [if_pos hexpired]
    refine (alike_expireLazily hij).bind fun _ _ _ => ?_
    exact alike_refuse _
  · simp only [if_neg hexpired]
    refine (alike_atomically (alike_enrolMember hij user)).bind ?_
    rintro member _ rfl
    refine (blind_log _).bind fun _ => ?_
    exact blind_pure member

theorem alike_revokeInvitation (invitation requester : Int) :
    (revokeInvitation invitation requester).Alike K (fun i j => i.conceal = j.conceal)
      (revokeInvitation invitation requester) := by
  unfold revokeInvitation revokePending
  simp only [liftM_work, ofWork_bind, bind_assoc]
  refine (alike_perform_blind rfl).bind fun found found' hfound => ?_
  refine (alike_found _ hfound).bind fun i j hij => ?_
  obtain ⟨digest, rfl⟩ := Invitation.eq_of_conceal hij
  refine (blind_permission i.teamId requester _).bind fun _ => ?_
  refine (blind_require _ _).bind fun _ => ?_
  refine blind_now.bind fun now => ?_
  refine (alike_perform_blind rfl).bind fun settled settled' h => ?_
  refine (alike_found _ h).bind fun i j hij => ?_
  obtain ⟨digest, rfl⟩ := Invitation.eq_of_conceal hij
  refine (blind_log _).bind fun _ => ?_
  exact alike_pure hij

theorem blind_expireStaleInvitations (team : Option Int) :
    (expireStaleInvitations team).Blind K := by
  unfold expireStaleInvitations
  simp only [liftM_work]
  refine blind_now.bind fun now => ?_
  refine (blind_perform rfl fun _ => rfl).bind fun expired => ?_
  refine (blind_log _).bind fun _ => ?_
  exact blind_pure expired

/-- A view goes by everything but the digest. -/
theorem map_view_conceal {l l' : List Invitation} (h : l.map (·.conceal) = l'.map (·.conceal))
    (now : Instant) : (l.map fun i => InvitationView.of i now).map (·.conceal) =
      (l'.map fun i => InvitationView.of i now).map (·.conceal) := by
  have hview : ∀ l : List Invitation, (l.map fun i => InvitationView.of i now).map (·.conceal) =
      (l.map (·.conceal)).map fun i => InvitationView.of i now := by
    intro l
    simp only [List.map_map]
    rfl
  rw [hview, hview, h]

theorem alike_listTeamInvitations (team requester : Int) (status : Option InvitationStatus)
    (page : Page) : (listTeamInvitations team requester status page).Alike K
      (fun a b => a.map (·.conceal) = b.map (·.conceal))
      (listTeamInvitations team requester status page) := by
  unfold listTeamInvitations
  simp only [liftM_work]
  refine (blind_requireTeam team).bind fun _ => ?_
  refine (blind_permission team requester _).bind fun _ => ?_
  refine blind_now.bind fun now => ?_
  refine (alike_perform_blind rfl).bind fun l l' h => ?_
  exact alike_pure (map_view_conceal h now)

theorem alike_listMyInvitations (email : String) (status : Option InvitationStatus)
    (page : Page) : (listMyInvitations email status page).Alike K
      (fun a b => a.map (·.conceal) = b.map (·.conceal))
      (listMyInvitations email status page) := by
  unfold listMyInvitations
  simp only [liftM_work]
  refine blind_now.bind fun now => ?_
  refine (alike_perform_blind rfl).bind fun l l' h => ?_
  exact alike_pure (map_view_conceal h now)

end Program

/-! ## All calls -/

/-- The token that an action presents. -/
def Action.token? : Action → Option Secret
  | .acceptInvitation token _ _ => some token
  | .rejectInvitation token _ => some token
  | _ => none

/-- The same call, but for the token that it presents: two such tokens have
corresponding digests. -/
inductive Call.Counterpart (K : String → String → Prop) : Call → Call → Prop
  | acts (config : Config) (action : Action) (h : action.token? = none) :
    Counterpart K (.act config action) (.act config action)
  | accepts (config : Config) {x y : Secret} (user : Int) (email : String)
    (h : K (Token.hash x.plain) (Token.hash y.plain)) :
    Counterpart K (.act config (.acceptInvitation x user email))
      (.act config (.acceptInvitation y user email))
  | rejects (config : Config) {x y : Secret} (email : String)
    (h : K (Token.hash x.plain) (Token.hash y.plain)) :
    Counterpart K (.act config (.rejectInvitation x email))
      (.act config (.rejectInvitation y email))
  | membership (call : MembershipCall) : Counterpart K (.membership call) (.membership call)

section

variable {K : String → String → Prop}

open Program

/-- An action that presents no token answers alike. -/
theorem Action.alike (hK : Relator.BiUnique K) (config : Config) {action : Action}
    (h : action.token? = none) :
    ((action.program config).map action.answer).Alike K (Answer.Alike K)
      ((action.program config).map action.answer) := by
  cases action with
  | acceptInvitation | rejectInvitation => cases h
  | createTeam input => exact (blind_createTeam config input).answers fun _ => rfl
  | updateTeam input => exact (blind_updateTeam input).answers fun _ => rfl
  | deleteTeam team requester => exact (blind_deleteTeam team requester).answers fun _ => rfl
  | getTeam team requester => exact (blind_getTeam team requester).answers fun _ => rfl
  | listMyTeams user page => exact (blind_listMyTeams user page).answers fun _ => rfl
  | listMembers team requester => exact (blind_listMembers team requester).answers fun _ => rfl
  | updateMemberRole team target requester role =>
    exact (blind_updateMemberRole team target requester role).answers fun _ => rfl
  | removeMember team target requester =>
    exact (blind_removeMember team target requester).answers fun _ => rfl
  | leaveTeam team user => exact (blind_leaveTeam team user).answers fun _ => rfl
  | sendInvitation team inviter email role =>
    refine (alike_sendInvitation hK config team inviter email role).map fun a b h => ?_
    have hid : a.invitation.id = b.invitation.id :=
      (congrArg (fun sent : SentInvitation => sent.invitation.id) h.1 :)
    exact ⟨congrArg Answer.sent h.1, .some ⟨hid, h.2⟩⟩
  | listTeamInvitations team requester status page =>
    refine (alike_listTeamInvitations team requester status page).map fun a b h => ?_
    exact .of_conceal (congrArg Answer.views h) rfl rfl
  | listMyInvitations email status page =>
    refine (alike_listMyInvitations email status page).map fun a b h => ?_
    exact .of_conceal (congrArg Answer.views h) rfl rfl
  | revokeInvitation invitation requester =>
    refine (alike_revokeInvitation invitation requester).map fun a b h => ?_
    exact .of_conceal (congrArg Answer.invitation h) rfl rfl
  | expireStaleInvitations team =>
    exact (blind_expireStaleInvitations team).answers fun _ => rfl

/-- A membership rule shows no digests. -/
theorem MembershipCall.alike (call : MembershipCall) :
    (call.program.map call.answer).Alike K (Answer.Alike K) (call.program.map call.answer) := by
  cases call with
  | get team user => exact (blind_get team user).answers fun _ => rfl
  | count team => exact (blind_count team).answers fun _ => rfl
  | require team user permission =>
    exact (blind_permission team user permission).answers fun _ => rfl
  | changeRole team target requester role =>
    exact (blind_changeRole team target requester role).answers fun _ => rfl
  | remove team target requester => exact (blind_remove team target requester).answers fun _ => rfl
  | leave team user => exact (blind_remove team user user).answers fun _ => rfl

/-- Counterparts run alike in alike worlds. -/
theorem Call.Counterpart.alike (hK : Relator.BiUnique K) {call call' : Call}
    (h : call.Counterpart K call') : call.program.Alike K (Answer.Alike K) call'.program := by
  cases h with
  | acts config action htoken => exact Action.alike hK config htoken
  | accepts config user email hxy =>
    refine (alike_acceptInvitation hK hxy user email).map ?_
    rintro member _ rfl
    exact .of_conceal rfl rfl rfl
  | rejects config email hxy =>
    refine (alike_rejectInvitation hK hxy email).map fun a b h => ?_
    exact .of_conceal (congrArg Answer.invitation h) rfl rfl
  | membership call => exact call.alike

end

end Roster
