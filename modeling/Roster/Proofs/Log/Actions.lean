import Roster.Proofs.Log.Lines

/-!
# The log lines of actions

An action logs what its program tells: a warning for each expiry whose write failed, and then, if
it succeeded, the line that reports its change.

* `Action.report` — the line that reports a change, `Action.tells` that it is what the program
  of the action tells, and `Action.mute` that actions without changes log nothing;
* `Action.Logs` — what this says of the lines, and `Action.log_exact` that they are so in every
  run, whatever runs at the same time.
-/

namespace Roster

/-! ## Work of actions -/

section

open Work

theorem sparing_requireTeam (team : Int) : (requireTeam team).Sparing :=
  (sparing_perform rfl).bind fun _ => sparing_found _ _

namespace Membership

variable (team user target requester : Int) (role : Role)

theorem sparing_member (permission : Permission) : (require team user permission).Sparing :=
  (sparing_perform rfl).bind fun _ => (sparing_found _ _).bind fun _ =>
    (sparing_require _ _).bind fun _ => sparing_pure _

theorem sparing_get : (get team user).Sparing :=
  (sparing_perform rfl).bind fun _ => sparing_found _ _

theorem sparing_count : (count team).Sparing :=
  sparing_perform rfl

theorem sparing_changeRole : (changeRole team target requester role).Sparing :=
  (sparing_member team requester .updateRole).bind fun _ => (sparing_get team target).bind fun _ =>
    (sparing_require _ _).bind fun _ => (sparing_require _ _).bind fun _ =>
      (sparing_require _ _).bind fun _ => sparing_now.bind fun _ => sparing_perform rfl

theorem sparing_remove : (remove team target requester).Sparing := by
  refine (sparing_get team target).bind fun _ => (sparing_require _ _).bind fun _ => ?_
  split
  · exact (sparing_member team requester .removeMember).bind fun _ => sparing_perform rfl
  · exact sparing_perform rfl

end Membership

theorem UpdateTeam.sparing_applyName (team : Team) (now : Instant) (name : Option String) :
    (applyName team now name).Sparing := by
  cases name with
  | none => exact sparing_pure team
  | some name =>
    exact (sparing_ofInput _).bind fun _ => (sparing_perform rfl).bind fun _ =>
      (sparing_require _ _).bind fun _ => sparing_pure _

theorem UpdateTeam.sparing_applyLimit (team : Team) (now : Instant) (limit : Option UInt32) :
    (applyLimit team now limit).Sparing := by
  cases limit with
  | none => exact sparing_pure team
  | some limit =>
    refine (Membership.sparing_count team.id).bind fun _ => (sparing_require _ _).bind fun _ => ?_
    split
    · exact sparing_pure _
    · exact sparing_refuse _

theorem UpdateTeam.sparing_apply (input : UpdateTeam) : input.apply.Sparing :=
  (sparing_requireTeam _).bind fun _ => (Membership.sparing_member _ _ _).bind fun _ =>
    sparing_now.bind fun _ => (sparing_applyName _ _ _).bind fun _ =>
      (sparing_applyLimit _ _ _).bind fun _ => sparing_perform rfl

theorem sparing_withRoles (user : Int) (teams : List Team) : (withRoles user teams).Sparing := by
  induction teams with
  | nil => exact sparing_pure _
  | cons team rest ih =>
    exact (sparing_perform rfl).bind fun _ => ih.bind fun _ => sparing_pure _

theorem sparing_resolveToken (token : Secret) (email : String) :
    (resolveToken token email).Sparing :=
  (sparing_perform rfl).bind fun _ => (sparing_found _ _).bind fun _ =>
    (sparing_require _ _).bind fun _ => (sparing_require _ _).bind fun _ => sparing_pure _

theorem sparing_revokePending (invitation requester : Int) :
    (revokePending invitation requester).Sparing :=
  (sparing_perform rfl).bind fun _ => (sparing_found _ _).bind fun _ =>
    (Membership.sparing_member _ _ _).bind fun _ => (sparing_require _ _).bind fun _ =>
      sparing_now.bind fun _ => (sparing_perform rfl).bind fun _ => sparing_found _ _

end

/-! ## Reports -/

namespace Action

open Program Work

/-- The line that reports the change of an action, if it makes one. -/
def report : (action : Action) → action.Reply → Option LogLine
  | .createTeam _, team => some (.teamCreated team.id team.ownerId team.slug)
  | .updateTeam input, team => some (.teamUpdated team.id input.requesterId)
  | .deleteTeam team _, cancelled => some (.teamDeleted team cancelled)
  | .getTeam _ _, _ => none
  | .listMyTeams _ _, _ => none
  | .listMembers _ _, _ => none
  | .updateMemberRole _ _ requester _, member =>
    some (.roleUpdated member.teamId member.userId member.role requester)
  | .removeMember team target requester, _ => some (.memberRemoved team target requester)
  | .leaveTeam team user, _ => some (.memberLeft team user)
  | .sendInvitation _ _ _ _, ⟨invitation, _, _⟩ =>
    some (.invitationSent invitation.teamId invitation.id invitation.role invitation.invitedBy)
  | .listTeamInvitations _ _ _ _, _ => none
  | .listMyInvitations _ _ _, _ => none
  | .acceptInvitation _ _ _, member =>
    some (.invitationAccepted member.teamId member.userId member.role)
  | .rejectInvitation _ _, invitation =>
    some (.invitationRejected invitation.teamId invitation.id)
  | .revokeInvitation _ requester, invitation =>
    some (.invitationRevoked invitation.teamId invitation.id requester)
  | .expireStaleInvitations _, count => some (.invitationsExpired count)

/-- The actions that make changes. -/
def mutates : Action → Bool
  | .getTeam _ _ | .listMyTeams _ _ | .listMembers _ _ | .listTeamInvitations _ _ _ _
  | .listMyInvitations _ _ _ => false
  | _ => true

/-- The actions that make changes report them, and each says so in one line. -/
theorem isSome_report (action : Action) (reply : action.Reply) :
    (action.report reply).isSome = action.mutates := by
  cases action <;> rfl

theorem tells_createTeam (config : Config) (input : CreateTeam) :
    (Roster.createTeam config input).Tells
      fun team => [.teamCreated team.id team.ownerId team.slug] :=
  tells_work (sparing_ofInput _) fun _ => tells_work (sparing_require _ _) fun _ =>
    tells_work (sparing_perform rfl) fun _ => tells_work (sparing_require _ _) fun _ =>
      tells_work sparing_now fun _ => .bind (silent_atomically _) fun _ => tells_report rfl

theorem tells_updateTeam (input : UpdateTeam) :
    (Roster.updateTeam input).Tells fun team => [.teamUpdated team.id input.requesterId] :=
  tells_work input.sparing_apply fun _ => tells_report rfl

theorem tells_deleteTeam (team requester : Int) :
    (Roster.deleteTeam team requester).Tells fun cancelled => [.teamDeleted team cancelled] :=
  tells_work (sparing_requireTeam team) fun _ => tells_work (sparing_perform rfl) fun _ =>
    tells_work (sparing_found _ _) fun _ => tells_work (sparing_require _ _) fun _ =>
      tells_work sparing_now fun _ => .bind (silent_atomically _) fun _ => tells_report rfl

theorem silent_getTeam (team requester : Int) : (Roster.getTeam team requester).Silent :=
  tells_work (sparing_requireTeam team) fun _ =>
    tells_work (Membership.sparing_member _ _ _) fun _ => tells_pure rfl

theorem silent_listMyTeams (user : Int) (page : Page) : (Roster.listMyTeams user page).Silent :=
  tells_work (sparing_perform rfl) fun _ => silent_ofWork (sparing_withRoles _ _)

theorem silent_listMembers (team requester : Int) : (Roster.listMembers team requester).Silent :=
  tells_work (sparing_requireTeam team) fun _ =>
    tells_work (Membership.sparing_member _ _ _) fun _ => silent_ofWork (sparing_perform rfl)

theorem tells_updateMemberRole (team target requester : Int) (role : Role) :
    (Roster.updateMemberRole team target requester role).Tells fun member =>
      [.roleUpdated member.teamId member.userId member.role requester] :=
  tells_work (sparing_requireTeam team) fun _ =>
    tells_work (Membership.sparing_changeRole _ _ _ _) fun _ => tells_report rfl

theorem tells_removeMember (team target requester : Int) :
    (Roster.removeMember team target requester).Tells
      fun _ => [.memberRemoved team target requester] :=
  tells_work (sparing_requireTeam team) fun _ =>
    tells_work (Membership.sparing_remove _ _ _) fun _ => tells_log _

theorem tells_leaveTeam (team user : Int) :
    (Roster.leaveTeam team user).Tells fun _ => [.memberLeft team user] :=
  tells_work (sparing_requireTeam team) fun _ =>
    tells_work (Membership.sparing_remove _ _ _) fun _ => tells_log _

theorem silent_checkInvitee (team inviter : Int) (email : String) (role : Role) :
    (checkInvitee team inviter email role).Silent := by
  refine tells_work (Membership.sparing_member _ _ _) fun _ =>
    tells_work (sparing_require _ _) fun _ => tells_work (sparing_require _ _) fun _ =>
      tells_work (sparing_requireTeam _) fun _ => tells_work (Membership.sparing_count _) fun _ =>
        tells_work (sparing_require _ _) fun _ => tells_work (sparing_ofInput _) fun _ =>
          .bind (silent_userByEmail _) fun invitee => ?_
  have hrest : ∀ outstanding : Option Invitation,
      (ofWork (Work.require outstanding.isNone (.alreadyInvited team)) >>= fun _ =>
        pure (Email.normalize email, invitee) : Program (String × Option User)).Silent :=
    fun _ => tells_work (sparing_require _ _) fun _ => tells_pure rfl
  cases invitee with
  | none => exact tells_work (sparing_perform rfl) hrest
  | some user =>
    exact tells_work (sparing_perform rfl) fun _ => tells_work (sparing_require _ _) fun _ =>
      tells_work (sparing_perform rfl) hrest

theorem tells_sendInvitation (config : Config) (team inviter : Int) (email : String)
    (role : Role) : (Roster.sendInvitation config team inviter email role).Tells
      fun sent => [.invitationSent sent.invitation.teamId sent.invitation.id sent.invitation.role
        sent.invitation.invitedBy] :=
  .bind (silent_checkInvitee _ _ _ _) fun _ => .bind (silent_token _) fun _ =>
    tells_work sparing_now fun _ => .bind (silent_later _ _) fun _ =>
      tells_work (sparing_perform rfl) fun _ => tells_report rfl

theorem silent_listTeamInvitations (team requester : Int) (status : Option InvitationStatus)
    (page : Page) : (Roster.listTeamInvitations team requester status page).Silent :=
  tells_work (sparing_requireTeam team) fun _ =>
    tells_work (Membership.sparing_member _ _ _) fun _ => tells_work sparing_now fun _ =>
      tells_work (sparing_perform rfl) fun _ => tells_pure rfl

theorem silent_listMyInvitations (email : String) (status : Option InvitationStatus)
    (page : Page) : (Roster.listMyInvitations email status page).Silent :=
  tells_work sparing_now fun _ => tells_work (sparing_perform rfl) fun _ => tells_pure rfl

/-- An acceptance that comes too late warns of an expiry that it could not write down; one in time
reports the member. -/
theorem tells_acceptInvitation (token : Secret) (user : Int) (email : String) :
    (Roster.acceptInvitation token user email).Tells fun member =>
      [.invitationAccepted member.teamId member.userId member.role] := by
  refine tells_work (sparing_resolveToken token email) fun _ => tells_work sparing_now fun _ => ?_
  split
  · exact .bind (silent_expireLazily _) fun _ => tells_refuse _
  · exact .bind (silent_atomically _) fun _ => tells_report rfl

theorem tells_rejectInvitation (token : Secret) (email : String) :
    (Roster.rejectInvitation token email).Tells
      fun invitation => [.invitationRejected invitation.teamId invitation.id] :=
  tells_work (sparing_resolveToken token email) fun _ => tells_work sparing_now fun _ =>
    tells_work (sparing_perform rfl) fun _ => tells_work (sparing_found _ _) fun _ =>
      tells_report rfl

theorem tells_revokeInvitation (invitation requester : Int) :
    (Roster.revokeInvitation invitation requester).Tells fun revoked =>
      [.invitationRevoked revoked.teamId revoked.id requester] :=
  tells_work (sparing_revokePending _ _) fun _ => tells_report rfl

theorem tells_expireStaleInvitations (team : Option Int) :
    (Roster.expireStaleInvitations team).Tells fun count => [.invitationsExpired count] :=
  tells_work sparing_now fun _ => tells_work (sparing_perform rfl) fun _ => tells_report rfl

/-- Every action tells its report. -/
theorem tells (config : Config) (action : Action) :
    (action.program config).Tells fun reply => (action.report reply).toList := by
  cases action with
  | createTeam input => exact tells_createTeam config input
  | updateTeam input => exact tells_updateTeam input
  | deleteTeam team requester => exact tells_deleteTeam team requester
  | getTeam team requester => exact silent_getTeam team requester
  | listMyTeams user page => exact silent_listMyTeams user page
  | listMembers team requester => exact silent_listMembers team requester
  | updateMemberRole team target requester role =>
    exact tells_updateMemberRole team target requester role
  | removeMember team target requester => exact tells_removeMember team target requester
  | leaveTeam team user => exact tells_leaveTeam team user
  | sendInvitation team inviter email role =>
    exact tells_sendInvitation config team inviter email role
  | listTeamInvitations team requester status page =>
    exact silent_listTeamInvitations team requester status page
  | listMyInvitations email status page => exact silent_listMyInvitations email status page
  | acceptInvitation token user email => exact tells_acceptInvitation token user email
  | rejectInvitation token email => exact tells_rejectInvitation token email
  | revokeInvitation invitation requester => exact tells_revokeInvitation invitation requester
  | expireStaleInvitations team => exact tells_expireStaleInvitations team

/-- The actions that make no changes do nothing but work and ask for the time. -/
theorem mute (config : Config) {action : Action} (h : action.mutates = false) :
    (action.program config).Mute := by
  cases action with
  | getTeam team requester =>
    exact (mute_ofWork _).bind fun _ => (mute_ofWork _).bind fun _ => mute_done _
  | listMyTeams user page => exact (mute_ofWork _).bind fun _ => mute_ofWork _
  | listMembers team requester =>
    exact (mute_ofWork _).bind fun _ => (mute_ofWork _).bind fun _ => mute_ofWork _
  | listTeamInvitations team requester status page =>
    exact (mute_ofWork _).bind fun _ => (mute_ofWork _).bind fun _ => (mute_ofWork _).bind fun _ =>
      (mute_ofWork _).bind fun _ => mute_done _
  | listMyInvitations email status page =>
    exact (mute_ofWork _).bind fun _ => (mute_ofWork _).bind fun _ => mute_done _
  | _ => cases h

/-! ## Values of lines -/

/-- The slug of a new team is the slug of a name. -/
theorem yields_createTeam (config : Config) (input : CreateTeam) :
    (Roster.createTeam config input).Yields fun team => ∃ name, team.slug = slugify name :=
  yields_bind fun name => yields_bind fun _ => yields_bind fun _ => yields_bind fun _ =>
    yields_bind fun _ => (yields_found _).bind fun _ hslug =>
      yields_bind fun _ => yields_pure ⟨name, hslug⟩

/-- Reports are made of ids, counts, names of roles and slugs. -/
theorem report_unforged {config : Config} {action : Action} {exchanges : List Exchange}
    {reply : action.Reply} (h : (action.program config).Transcript exchanges (.ok reply))
    {line : LogLine} (hline : action.report reply = some line) : line.Unforged := by
  refine LogLine.unforged ?_
  cases action with
  | createTeam input =>
    obtain ⟨name, hslug⟩ := yields_createTeam config input _ _ h
    cases hline
    simp [LogLine.values, hslug]
  | getTeam | listMyTeams | listMembers | listTeamInvitations | listMyInvitations => cases hline
  | _ =>
    cases hline
    simp [LogLine.values]

end Action

/-- A write of an expiry fails with one of two causes. -/
theorem Tables.settleInvitation_error {s : Tables} {invitation : Int} {status : InvitationStatus}
    {now : Instant} {e : TeamError} (h : s.settleInvitation invitation status now = .error e) :
    e = .database "injected failure: update_status" ∨ e = .invitationNotFound := by
  unfold settleInvitation at h
  split at h
  · cases h
    exact .inl rfl
  · split at h
    · cases h
      exact .inr rfl
    · split at h <;> cases h

/-- Warnings are made of an id and one of two messages. -/
theorem World.lostExpiry_line (w : World Tables) {α : Type} {request : Request α}
    {line : LogLine} (h : (w.exchange request).lostExpiry? = some line) :
    line.level = .warning ∧ line.Unforged := by
  cases request with
  | store call =>
    cases call with
    | settleInvitation invitation status now =>
      cases status with
      | expired =>
        cases hsettled : w.store.perform (.settleInvitation invitation .expired now) with
        | ok settled =>
          rw [exchange, Program.answer_ok hsettled] at h
          cases h
        | error e =>
          rw [exchange, Program.answer_error hsettled] at h
          cases h
          refine ⟨rfl, LogLine.unforged ?_⟩
          have hmessage : LogLine.Plain e.message := by
            unfold LogLine.Plain
            rw [← List.all_eq_true]
            rcases Tables.settleInvitation_error hsettled with rfl | rfl <;> decide
          simp [LogLine.values, hmessage]
      | _ => cases h
    | _ => cases h
  | _ => cases h

/-! ## Runs of actions -/

/-- What a thread ended with, once it has written its log lines too. -/
def Thread.ended? (thread : Thread) : Option (Except Failure Answer) :=
  match thread.rest with
  | .done result => some result
  | .ask _ _ => none

namespace Action

/-- What an action reports of its end. -/
def reported (action : Action) : Except Failure action.Reply → List LogLine
  | .ok reply => (action.report reply).toList
  | .error _ => []

/-- What an action logs, by what it asked and how it ended: first the expiries that it could not
write down, then its report. -/
structure Logs (action : Action) (exchanges : List Exchange)
    (result : Except Failure action.Reply) (lines : List LogLine) : Prop where
  exact : lines = exchanges.filterMap Exchange.lostExpiry? ++ action.reported result
  readOnly : action.mutates = false → lines = []
  infos : lines.countP (·.level = .info) = if result.isOk && action.mutates then 1 else 0
  warnings : lines.filter (·.level = .warning) = exchanges.filterMap Exchange.lostExpiry?
  errors : ∀ line ∈ lines, line.level ≠ .error
  unforged : ∀ line ∈ lines, line.Unforged

/-- Whoever changes something and succeeds reports it, in one line. -/
theorem length_reported (action : Action) (result : Except Failure action.Reply) :
    (action.reported result).length = if result.isOk && action.mutates then 1 else 0 := by
  cases result with
  | error e => rfl
  | ok reply =>
    change (action.report reply).toList.length = if action.mutates then 1 else 0
    rw [Option.length_toList, isSome_report]

/-- Reports are for information. -/
theorem level_report {action : Action} {reply : action.Reply} {line : LogLine}
    (h : action.report reply = some line) : line.level = .info := by
  cases action with
  | getTeam | listMyTeams | listMembers | listTeamInvitations | listMyInvitations => cases h
  | _ =>
    cases h
    rfl

/-- In every transcript of its program an action logs what it is to log. -/
theorem logs_transcript {config : Config} {action : Action} {exchanges : List Exchange}
    {result : Except Failure action.Reply}
    (h : (action.program config).Transcript exchanges result) :
    action.Logs exchanges result (exchanges.flatMap Exchange.lines) := by
  have hexact : exchanges.flatMap Exchange.lines =
      exchanges.filterMap Exchange.lostExpiry? ++ action.reported result := by
    have htells := action.tells config exchanges result h
    cases result <;> exact htells
  have hlost : ∀ line ∈ exchanges.filterMap Exchange.lostExpiry?,
      line.level = .warning ∧ line.Unforged := by
    intro line hline
    obtain ⟨exchange, hexchange, hlost⟩ := List.mem_filterMap.mp hline
    obtain ⟨w, hw⟩ := h.answered hexchange
    exact w.lostExpiry_line (hw ▸ hlost)
  have hreported : ∀ line ∈ action.reported result, line.level = .info ∧ line.Unforged := by
    intro line hline
    cases result with
    | error e => cases hline
    | ok reply =>
      have hreport : action.report reply = some line := Option.mem_toList.mp hline
      exact ⟨level_report hreport, report_unforged h hreport⟩
  have hreadOnly (hmutates : action.mutates = false) :
      exchanges.filterMap Exchange.lostExpiry? ++ action.reported result = [] :=
    hexact ▸ mute config hmutates exchanges result h
  rw [hexact]
  refine ⟨rfl, hreadOnly, ?_, ?_, ?_, ?_⟩
  · have hnone : (exchanges.filterMap Exchange.lostExpiry?).countP (·.level = .info) = 0 := by
      rw [List.countP_eq_zero]
      intro line hline
      simp [(hlost line hline).1]
    have hall : (action.reported result).countP (·.level = .info) =
        (action.reported result).length := by
      rw [List.countP_eq_length]
      intro line hline
      simp [(hreported line hline).1]
    rw [List.countP_append, hnone, hall, Nat.zero_add, length_reported]
  · have hall : (exchanges.filterMap Exchange.lostExpiry?).filter (·.level = .warning) =
        exchanges.filterMap Exchange.lostExpiry? := by
      rw [List.filter_eq_self]
      intro line hline
      simp [(hlost line hline).1]
    have hnone : (action.reported result).filter (·.level = .warning) = [] := by
      rw [List.filter_eq_nil_iff]
      intro line hline
      simp [(hreported line hline).1]
    rw [List.filter_append, hall, hnone, List.append_nil]
  · intro line hline herror
    rcases List.mem_append.mp hline with hline | hline
    · rw [(hlost line hline).1] at herror
      cases herror
    · rw [(hreported line hline).1] at herror
      cases herror
  · intro line hline
    rcases List.mem_append.mp hline with hline | hline
    · exact (hlost line hline).2
    · exact (hreported line hline).2

/-- What a thread has logged since it began is the beginning of what its action is to log. -/
theorem logs_extended {config : Config} {action : Action} {pool : Pool} {i : Nat}
    (hfresh : pool.threads[i]? = none) {events : List Event} {thread : Thread}
    (hthread : (pool.run events).threads[i]? = some thread)
    (hcall : thread.call = .act config action) {late : List Exchange}
    {answer : Except Failure Answer} (hlate : thread.rest.Transcript late answer) :
    ∃ result, answer = result.map action.answer ∧
      action.Logs (pool.transcript i events ++ late) result
        (pool.log i events ++ late.flatMap Exchange.lines) := by
  have htranscript := Pool.transcript_call hfresh events hthread hlate
  rw [hcall] at htranscript
  obtain ⟨result, hresult, hanswer⟩ := Program.Transcript.of_map htranscript
  have hlogs := logs_transcript hresult
  rw [List.flatMap_append, ← Pool.log_eq] at hlogs
  exact ⟨result, hanswer, hlogs⟩

/-- An action logs what it is to log, on any tables with nothing in between, and in every run of a
pool that starts on an empty store: while it runs it writes no forged line, and when it has ended
its log is complete. -/
theorem log_exact (config : Config) (action : Action) :
    (∀ w : World Tables,
      let run := (action.program config).run w
      action.Logs ((action.program config).transcript w) run.result run.log) ∧
    ∀ (clock : Instant) (random : RandomSource) (events : List Event) (i : Nat) (thread : Thread),
      let pool := Pool.start clock random
      (pool.run events).threads[i]? = some thread → thread.call = .act config action →
      (∀ line ∈ pool.log i events, line.Unforged) ∧
      ∀ answer, thread.ended? = some answer → ∃ result, answer = result.map action.answer ∧
        action.Logs (pool.transcript i events) result (pool.log i events) := by
  constructor
  · intro w run
    obtain ⟨htranscript, hlog⟩ := (action.program config).transcript_run w
    have hlogs := logs_transcript htranscript
    rw [← hlog] at hlogs
    exact hlogs
  · intro clock random events i thread pool hthread hcall
    have hfresh : pool.threads[i]? = none := rfl
    constructor
    · intro line hline
      obtain ⟨_, -, hlogs⟩ := logs_extended hfresh hthread hcall
        (thread.rest.transcript_run pool.world).1
      exact hlogs.unforged line (List.mem_append_left _ hline)
    · intro answer hended
      have hdone : thread.rest.Transcript [] answer := by
        unfold Thread.ended? at hended
        split at hended
        · rename_i hrest
          rw [hrest, Option.some.inj hended]
          exact .done answer
        · cases hended
      obtain ⟨result, hanswer, hlogs⟩ := logs_extended hfresh hthread hcall hdone
      rw [List.append_nil, List.flatMap_nil, List.append_nil] at hlogs
      exact ⟨result, hanswer, hlogs⟩

/-- A team with double quotes and a line break in its name invites somebody. When the invitation
has expired, the store fails to write that down. -/
def expiredUnwritten : List Event :=
  let act (action : Action) : Event := .begins (.act .default action)
  let steps (i count : Nat) : List Event := List.replicate count (.proceeds i)
  act (.createTeam
    { ownerId := 7
      name := "Core\n\"Team\""
      description := none
      visibility := .everyone
      memberLimit := none }) :: steps 0 4 ++
  act (.sendInvitation 1 7 "ann@example.org" .member) :: steps 1 10 ++
  [.setClock ⟨1000000, 0, by decide, by decide⟩, .failSettling true]

/-- It is accepted then. -/
def lateAcceptance : Action :=
  .acceptInvitation ⟨(RandomSource.sequence.token 32).1⟩ 1 "ann@example.org"

theorem log_exact_of_lost_expiry :
    let pool := Pool.start .epoch .sequence
    let events := expiredUnwritten ++
      .begins (.act .default lateAcceptance) :: List.replicate 5 (.proceeds 2)
    pool.log 0 events = [.teamCreated 1 7 "core-team"] ∧
    pool.log 1 events = [.invitationSent 1 1 .member 7] ∧
    pool.log 2 events = [.expiryNotWritten 1 (.database "injected failure: update_status")] ∧
    ∃ thread answer result, (pool.run events).threads[2]? = some thread ∧
      thread.call = .act .default lateAcceptance ∧ thread.ended? = some answer ∧
      answer = result.map lateAcceptance.answer ∧
      lateAcceptance.Logs (pool.transcript 2 events) result (pool.log 2 events) := by
  intro pool events
  obtain ⟨thread, hthread, hcall, -⟩ := Pool.fits_along Rely.keyed_governs
    (Pool.start_fits .epoch .sequence expiredUnwritten) (.act .default lateAcceptance)
    (List.replicate 5 (.proceeds 2))
  have hplace : ((Pool.start .epoch .sequence).run expiredUnwritten).threads.length = 2 := by
    decide +kernel
  rw [hplace, ← Pool.run_cons, ← Pool.run_append] at hthread
  have hends : ((pool.run events).threads[2]?.bind Thread.ended?).isSome = true := by
    decide +kernel
  rw [hthread, Option.bind_some, Option.isSome_iff_exists] at hends
  obtain ⟨answer, hended⟩ := hends
  obtain ⟨result, hanswer, hlogs⟩ := (log_exact .default lateAcceptance).2 .epoch .sequence events
    2 thread hthread hcall |>.2 answer hended
  refine ⟨?_, ?_, ?_, thread, answer, result, hthread, hcall, hended, hanswer, hlogs⟩
  all_goals decide +kernel

end Action

end Roster
