import Roster.Proofs.Deed.Basic
import Roster.Proofs.Program.Units

/-!
# Calls keep to their deeds: reading and members

`Program.Serves` says of the rest of a program that it serves a call: whatever
others do, it keeps to the deeds of the call. Here it is proved for what all
calls share (looking for a team, a member or a permission), for the calls that
only read, and for the changes of members.
-/

namespace Roster

namespace Program

variable {α β : Type}

/-- From any world in which the facts were seen, the program serves the call. -/
abbrev Serves (rely : Rely) (call : Call) (toAnswer : α → Answer)
    (seen : List (World Tables → Prop)) (program : Program α) : Prop :=
  program.Knowing rely (fun w s r => call.Deed rely w s (r.map toAnswer))
    (fun _ r => call.Quiet (r.map toAnswer)) seen

variable {rely : Rely} {call : Call} {toAnswer : α → Answer}
  {seen : List (World Tables → Prop)}

/-- A failure is a quiet end of any call. -/
theorem serves_refuse (e : TeamError) : (refuse e : Program α).Serves rely call toAnswer seen :=
  knowing_refuse fun _ _ _ => .inr ⟨.error e, rfl⟩

/-- Any reply is a quiet end of a reading call. -/
theorem serves_pure (hreads : call.onlyReads = true) (a : α) :
    (pure a : Program α).Serves rely call toAnswer seen :=
  knowing_pure fun _ _ _ => .inl hreads

/-- A program that ends with its last part serves as that part does. -/
theorem serves_of_bind_pure {program : Program α}
    (h : (program >>= pure).Serves rely call toAnswer seen) :
    program.Serves rely call toAnswer seen := by
  rwa [bind_pure] at h

/-! ### Steps that fail or go on -/

theorem serves_found {e : TeamError} {found : Option β} {f : β → Program α}
    (h : ∀ a, found = some a → (f a).Serves rely call toAnswer seen) :
    (ofWork (Work.found e found) >>= f).Serves rely call toAnswer seen :=
  knowing_found (fun _ => serves_refuse _) h

theorem serves_check {condition : Bool} {e : TeamError} {f : Unit → Program α}
    (h : condition = true → (f ()).Serves rely call toAnswer seen) :
    (ofWork (Work.require condition e) >>= f).Serves rely call toAnswer seen :=
  knowing_require (fun _ => serves_refuse _) h

theorem serves_input {input : Except InvalidInput β} {f : β → Program α}
    (h : ∀ a, input = .ok a → (f a).Serves rely call toAnswer seen) :
    (ofWork (Work.ofInput input) >>= f).Serves rely call toAnswer seen :=
  knowing_ofInput (fun _ _ => serves_refuse _) h

/-- A call on the store fails or is the deed. -/
theorem serves_write {write : StoreCall β} {f : β → Program α}
    (h : ∀ w reply s, (∀ fact ∈ seen, rely.Seen w fact) →
      w.store.perform write = .ok (reply, s) →
      ∃ result, (f reply).outcome? = some result ∧ call.Deed rely w s (result.map toAnswer)) :
    (ofWork (Work.perform write) >>= f).Serves rely call toAnswer seen := by
  apply knowing_write (fun _ => serves_refuse _)
  intro w reply s _ hseen hwrite
  exact .inr (h w reply s hseen hwrite)

/-- A unit of work fails or is the deed. -/
theorem serves_atomically {unit : UnitOfWork β} {f : β → Program α}
    (h : ∀ w reply, (∀ fact ∈ seen, rely.Seen w fact) →
      (unit.work.run w.clock w.store).result = .ok reply →
      ∃ result, (f reply).outcome? = some result ∧
        call.Deed rely w (unit.work.run w.clock w.store).store (result.map toAnswer)) :
    (atomically unit >>= f).Serves rely call toAnswer seen := by
  apply knowing_atomically (fun _ => serves_refuse _)
  intro w reply _ hseen hresult
  exact h w reply hseen hresult

/-! ### Rules that all calls share -/

/-- Looking for a team fails, or an active team was seen. -/
theorem serves_requireTeam {team : Int} {f : Team → Program α}
    (h : ∀ found, (f found).Serves rely call toAnswer
      ((fun v => v.store.findTeam team = some found) :: seen)) :
    (ofWork (requireTeam team) >>= f).Serves rely call toAnswer seen := by
  unfold requireTeam
  rw [ofWork_bind, bind_assoc]
  refine knowing_read (fun _ => rfl) ?_
  intro found
  apply serves_found
  intro team hfound
  subst hfound
  exact h team

/-- Looking for a member fails, or the member was seen. -/
theorem serves_get {team user : Int} {f : Member → Program α}
    (h : ∀ member, (f member).Serves rely call toAnswer
      ((fun v => v.store.findMember team user = some member) :: seen)) :
    (ofWork (Membership.get team user) >>= f).Serves rely call toAnswer seen := by
  unfold Membership.get
  rw [ofWork_bind, bind_assoc]
  refine knowing_read (fun _ => rfl) ?_
  intro found
  apply serves_found
  intro member hfound
  subst hfound
  exact h member

/-- Asking for a permission fails, or a member whose role has it was seen. -/
theorem knowing_permission {deed : World Tables → Tables → Except Failure α → Prop}
    {quiet : World Tables → Except Failure α → Prop} {team user : Int} {permission : Permission}
    {f : Member → Program α}
    (hrefuse : ∀ e seen', (refuse e : Program α).Knowing rely deed quiet seen')
    (h : ∀ member, member.role.allows permission = true → (f member).Knowing rely deed quiet
      ((fun v => v.store.findMember team user = some member) :: seen)) :
    (ofWork (Membership.require team user permission) >>= f).Knowing rely deed quiet seen := by
  unfold Membership.require
  simp only [ofWork_bind, bind_assoc, ofWork_pure, pure_bind]
  refine knowing_read (fun _ => rfl) ?_
  intro found
  refine knowing_found (fun _ => hrefuse _ _) ?_
  intro member hfound
  refine knowing_require (fun _ => hrefuse _ _) ?_
  intro hallows
  subst hfound
  exact h member hallows

theorem serves_require {team user : Int} {permission : Permission} {f : Member → Program α}
    (h : ∀ member, member.role.allows permission = true → (f member).Serves rely call toAnswer
      ((fun v => v.store.findMember team user = some member) :: seen)) :
    (ofWork (Membership.require team user permission) >>= f).Serves rely call toAnswer seen :=
  knowing_permission (fun _ _ => serves_refuse _) h

end Program

open Program

variable {rely : Rely}

/-! ## Reading -/

theorem serves_getTeam (config : Config) (team requester : Int) :
    (getTeam team requester).Serves rely (.act config (.getTeam team requester)) .team [] := by
  unfold getTeam
  apply serves_requireTeam
  intro found
  apply serves_require
  intro _ _
  exact serves_pure rfl found

theorem serves_listMembers (config : Config) (team requester : Int) :
    (listMembers team requester).Serves rely (.act config (.listMembers team requester))
      .profiles [] := by
  unfold listMembers
  apply serves_requireTeam
  intro _
  apply serves_require
  intro _ _
  apply serves_of_bind_pure
  refine knowing_read (fun _ => rfl) ?_
  intro profiles
  exact serves_pure rfl profiles

/-- Looking roles up only reads. -/
theorem serves_withRoles {α : Type} {call : Call} {toAnswer : α → Answer} {user : Int}
    (teams : List Team) (f : List MyTeam → Program α) {seen : List (World Tables → Prop)}
    (h : ∀ listed seen, (f listed).Serves rely call toAnswer seen) :
    (ofWork (withRoles user teams) >>= f).Serves rely call toAnswer seen := by
  induction teams generalizing f seen with
  | nil => exact h [] seen
  | cons team rest ih =>
    unfold withRoles
    simp only [ofWork_bind, bind_assoc]
    refine knowing_read (fun _ => rfl) ?_
    intro member
    refine ih _ ?_
    intro listed seen
    exact h _ seen

theorem serves_listMyTeams (config : Config) (user : Int) (page : Page) :
    (listMyTeams user page).Serves rely (.act config (.listMyTeams user page)) .myTeams [] := by
  unfold listMyTeams
  refine knowing_read (fun _ => rfl) ?_
  intro teams
  exact serves_of_bind_pure (serves_withRoles teams _ fun listed seen => serves_pure rfl listed)

theorem serves_listTeamInvitations (config : Config) (team requester : Int)
    (status : Option InvitationStatus) (page : Page) :
    (listTeamInvitations team requester status page).Serves rely
      (.act config (.listTeamInvitations team requester status page)) .views [] := by
  unfold listTeamInvitations
  apply serves_requireTeam
  intro _
  apply serves_require
  intro _ _
  apply knowing_now
  intro _
  refine knowing_read (fun _ => rfl) ?_
  intro _
  exact serves_pure rfl _

theorem serves_listMyInvitations (config : Config) (email : String)
    (status : Option InvitationStatus) (page : Page) :
    (listMyInvitations email status page).Serves rely
      (.act config (.listMyInvitations email status page)) .views [] := by
  unfold listMyInvitations
  apply knowing_now
  intro _
  refine knowing_read (fun _ => rfl) ?_
  intro _
  exact serves_pure rfl _

/-! ## Members -/

/-- Changing a role reads the requester and the target, and then writes. -/
theorem serves_changeRole {α : Type} {call : Call} {toAnswer : α → Answer}
    {team target requester : Int} {role : Role} {f : Member → Program α}
    {seen : List (World Tables → Prop)}
    (h : ∀ w now changed s, (∀ fact ∈ seen, rely.Seen w fact) →
      RoleChange rely team target requester role now w s changed →
      ∃ result, (f changed).outcome? = some result ∧ call.Deed rely w s (result.map toAnswer)) :
    (ofWork (Membership.changeRole team target requester role) >>= f).Serves rely call toAnswer
      seen := by
  unfold Membership.changeRole
  simp only [ofWork_bind, bind_assoc]
  apply serves_require
  intro acting hacting
  apply serves_get
  intro member
  apply serves_check
  intro hplain
  apply serves_check
  intro hrole
  apply serves_check
  intro hassign
  apply knowing_now
  intro now
  apply serves_write
  intro w changed s hseen hwrite
  simp only [List.forall_mem_cons, decide_eq_true_eq] at hseen hplain hrole
  obtain ⟨hdated, htarget, hrequester, hseen⟩ := hseen
  exact h w now changed s hseen
    { permitted := hrequester.imp fun v hv => ⟨acting, hv, hacting, hassign⟩
      plain := htarget.imp fun v hv => ⟨member, hv, hplain⟩
      role_ne := hrole
      dated := hdated
      written := hwrite }

/-- Removing a member reads the target, and the requester if that is somebody
else, and then writes. -/
theorem serves_remove {α : Type} {call : Call} {toAnswer : α → Answer}
    {team target requester : Int} {f : Unit → Program α} {seen : List (World Tables → Prop)}
    (h : ∀ w s, (∀ fact ∈ seen, rely.Seen w fact) → Removal rely team target requester w s →
      ∃ result, (f ()).outcome? = some result ∧ call.Deed rely w s (result.map toAnswer)) :
    (ofWork (Membership.remove team target requester) >>= f).Serves rely call toAnswer seen := by
  unfold Membership.remove
  simp only [ofWork_bind, bind_assoc]
  apply serves_get
  intro member
  apply serves_check
  intro hplain
  rw [decide_eq_true_eq] at hplain
  by_cases hself : target = requester
  · -- on oneself no permission is asked for
    rw [if_neg (not_not_intro hself)]
    apply serves_write
    intro w _ s hseen hwrite
    obtain ⟨htarget, hseen⟩ := List.forall_mem_cons.mp hseen
    exact h w s hseen
      { plain := htarget.imp fun v hv => ⟨member, hv, hplain⟩
        permitted := fun hne => absurd hself hne
        written := hwrite }
  · rw [if_pos hself, ofWork_bind, bind_assoc]
    apply serves_require
    intro acting hacting
    apply serves_write
    intro w _ s hseen hwrite
    simp only [List.forall_mem_cons] at hseen
    obtain ⟨hrequester, htarget, hseen⟩ := hseen
    exact h w s hseen
      { plain := htarget.imp fun v hv => ⟨member, hv, hplain⟩
        permitted := fun _ => hrequester.imp fun v hv => ⟨acting, hv, hacting⟩
        written := hwrite }

theorem serves_updateMemberRole (config : Config) (team target requester : Int) (role : Role) :
    (updateMemberRole team target requester role).Serves rely
      (.act config (.updateMemberRole team target requester role)) .member [] := by
  unfold updateMemberRole
  apply serves_requireTeam
  intro found
  apply serves_changeRole
  intro w now changed s hseen hchange
  have hactive : rely.Seen w fun v => ∃ found, v.store.findTeam team = some found :=
    (hseen _ List.mem_cons_self).imp fun v hv => ⟨found, hv⟩
  exact ⟨.ok changed, rfl, .changesRole hactive hchange⟩

theorem serves_removeMember (config : Config) (team target requester : Int) :
    (removeMember team target requester).Serves rely
      (.act config (.removeMember team target requester)) (fun _ => .unit) [] := by
  unfold removeMember
  apply serves_requireTeam
  intro found
  apply serves_remove
  intro w s hseen hremoval
  have hactive : rely.Seen w fun v => ∃ found, v.store.findTeam team = some found :=
    (hseen _ List.mem_cons_self).imp fun v hv => ⟨found, hv⟩
  exact ⟨.ok (), rfl, .removes hactive hremoval⟩

theorem serves_leaveTeam (config : Config) (team user : Int) :
    (leaveTeam team user).Serves rely (.act config (.leaveTeam team user)) (fun _ => .unit) [] := by
  unfold leaveTeam Membership.leave
  apply serves_requireTeam
  intro found
  apply serves_remove
  intro w s hseen hremoval
  have hactive : rely.Seen w fun v => ∃ found, v.store.findTeam team = some found :=
    (hseen _ List.mem_cons_self).imp fun v hv => ⟨found, hv⟩
  exact ⟨.ok (), rfl, .leaves hactive hremoval⟩

/-! ## Membership rules used directly -/

theorem serves_membershipCall (call : MembershipCall) :
    call.program.Serves rely (.membership call) call.answer [] := by
  apply serves_of_bind_pure
  cases call with
  | get team user => exact serves_get fun member => serves_pure rfl member
  | count team => exact knowing_read (fun _ => rfl) fun count => serves_pure rfl count
  | require team user permission => exact serves_require fun member _ => serves_pure rfl member
  | changeRole team target requester role =>
    exact serves_changeRole fun w now changed s _ hchange =>
      ⟨.ok changed, rfl, .changesRoleDirectly hchange⟩
  | remove team target requester =>
    exact serves_remove fun w s _ hremoval => ⟨.ok (), rfl, .removesDirectly hremoval⟩
  | leave team user =>
    exact serves_remove fun w s _ hremoval => ⟨.ok (), rfl, .leavesDirectly hremoval⟩

end Roster
