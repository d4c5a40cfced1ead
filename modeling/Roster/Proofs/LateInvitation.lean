import Roster.Proofs.Deed.Rows
import Roster.Proofs.History
import Roster.Proofs.Ledger

/-!
# Invitations to deleted teams

The deletion of a team revokes the pending invitations to it, in the same step. An
invitation that a call writes after that is pending all the same: the call has
looked for the team before, in a step of its own.

* `Dissolution.settles` — right after the deletion no invitation to the team is
  pending, and `Call.Deed.team_deleted` — teams are deleted in no other way;
* `Pool.SentLate` — an invitation was written after the deletion of its team by a
  call that had found the team before;
* `Pool.pending_iff_sent_late` — of the pending invitations these are the ones
  whose team is deleted;
* `Pool.pending_on_deleted_team` — and there may be some.
-/

namespace Roster

section

variable {rely : Rely} {call : Call} {w : World Tables} {s : Tables}
  {result : Except Failure Answer}

/-- With a team its pending invitations are settled. -/
theorem Dissolution.settles {team requester : Int} {now : Instant} {count : Nat}
    (h : Dissolution rely team requester now w s count) {i : Invitation}
    (hi : i ∈ s.invitations) (hteam : i.teamId = team) : i.isPending = false := by
  obtain ⟨deleted, -, hsettle⟩ := h.sweep
  obtain ⟨-, rfl⟩ := Tables.settleAll_eq hsettle
  obtain ⟨j, -, rfl⟩ := List.mem_map.mp hi
  by_cases hmoves : (j.isPending && decide (j.teamId = team)) = true
  · rw [if_pos hmoves]
    rfl
  · rw [if_neg hmoves] at hteam ⊢
    rw [hteam, decide_eq_true rfl, Bool.and_true] at hmoves
    exact Bool.eq_false_iff.mpr hmoves

/-- Teams are only deleted by calls that delete them. -/
theorem Call.Deed.team_deleted (h : call.Deed rely w s result) {team : Team}
    (hteam : team ∈ s.teams) (hdeleted : team.status = .deleted) :
    team ∈ w.store.teams ∨
      ∃ requester now count, Dissolution rely team.id requester now w s count := by
  rcases h.team_written hteam with hold | ⟨config, input, name, now, hfounding⟩ |
    ⟨input, name, before, now, hupdate⟩ | ⟨old, requester, now, count, -, rfl, hdissolution⟩
  · exact .inl hold
  · -- a new team is active
    obtain ⟨founded, member, hcreate, -⟩ := hfounding.written
    obtain ⟨-, rfl, -⟩ := Tables.createTeam_ok hcreate
    cases hdeleted
  · -- and so is one that is written back
    obtain ⟨v, -, -, hfound⟩ := hupdate.found
    obtain ⟨-, -, hactive⟩ := Tables.findTeam_some hfound
    obtain ⟨-, -, rfl, -⟩ := Tables.updateTeam_ok hupdate.written
    rw [UpdateTeam.revise_status, hactive] at hdeleted
    cases hdeleted
  · exact .inr ⟨requester, now, count, hdissolution⟩

end

/-- A call to send an invitation to a team that began in a pool writes the invitation
after the given events, at a time when the team is deleted; but the call had found
the team. -/
structure Pool.WritesLate (began : Pool) (thread : Nat) (mid : List Event) (id team : Int) :
    Prop where
  found : ∃ first, first <+: mid ∧ ∃ row, (began.run first).world.store.findTeam team = some row
  deleted : ∃ row ∈ (began.run mid).world.store.teams, row.id = team ∧ row.status = .deleted
  absent : ∀ i ∈ (began.run mid).world.store.invitations, i.id ≠ id
  stored : ∃ i ∈ ((began.run mid).step (.proceeds thread)).world.store.invitations, i.id = id

/-- An invitation was sent after the deletion of its team. -/
def Pool.SentLate (initial : Pool) (events : List Event) (i : Invitation) : Prop :=
  ∃ early mid late config email,
    let call : Call := .act config (.sendInvitation i.teamId i.invitedBy email i.role)
    let thread := (initial.run early).threads.length
    events = early ++ .begins call :: mid ++ .proceeds thread :: late ∧
      ((initial.run early).step (.begins call)).WritesLate thread mid i.id i.teamId

namespace Pool

variable {rely : Rely} {initial pool pool' : Pool} {event : Event} {events : List Event}
  {i j : Invitation}

/-- What was sent late stays so. -/
theorem SentLate.append (h : initial.SentLate events i) (more : List Event) :
    initial.SentLate (events ++ more) i := by
  obtain ⟨early, mid, late, config, email, rfl, hwrites⟩ := h
  refine ⟨early, mid, late ++ more, config, email, ?_, hwrites⟩
  simp only [List.append_assoc, List.cons_append]

/-- Lateness is about the offer. -/
theorem SentLate.of_offer (h : initial.SentLate events i) (hoffer : i.offer = j.offer) :
    initial.SentLate events j := by
  obtain ⟨hid, hteam, -, hrole, -⟩ := Invitation.offer_eq hoffer
  have hinviter := congrArg Invitation.invitedBy hoffer
  rw [SentLate, hid, hteam, hrole, show i.invitedBy = j.invitedBy from hinviter] at h
  exact h

/-- If a team is deleted after an event and an invitation to it is pending, the event
did not delete the team. -/
theorem Course.deleted_before (hcourse : Course rely pool event pool') {team : Team}
    (hteam : team ∈ pool'.world.store.teams) (hdeleted : team.status = .deleted)
    (hi : i ∈ pool'.world.store.invitations) (hiteam : i.teamId = team.id)
    (hpending : i.isPending = true) : team ∈ pool.world.store.teams := by
  obtain ⟨hteams, -, -⟩ | ⟨_, _, _, _, -, -, -, -, -, hdeed⟩ := hcourse.rows_or_deed
  · exact hteams ▸ hteam
  · obtain hold | ⟨requester, now, count, hdissolution⟩ := hdeed.team_deleted hteam hdeleted
    · exact hold
    · rw [hdissolution.settles hi hiteam] at hpending
      cases hpending

/-- A call that began in a pool and brings an invitation to a deleted team writes it
late. -/
theorem writes_late (hfits : pool.Fits (Rely.among fun _ => True)) {call : Call}
    {mid : List Event} {before after : Thread} {result : Except Failure Answer} {team : Team} :
    let began := pool.step (.begins call)
    let next := (began.run mid).step (.proceeds pool.threads.length)
    (began.run mid).threads[pool.threads.length]? = some before → before.result? = none →
    next.threads[pool.threads.length]? = some after → after.result? = some result →
    i ∈ next.world.store.invitations →
    (∀ j ∈ (began.run mid).world.store.invitations, j.id ≠ i.id) →
    team ∈ next.world.store.teams → team.status = .deleted → team.id = i.teamId →
    ∃ config email, call = .act config (.sendInvitation i.teamId i.invitedBy email i.role) ∧
      began.WritesLate pool.threads.length mid i.id i.teamId := by
  intro began next hbefore hnone hafter hresult hi hnew hteam hdeleted hid
  obtain ⟨hsame, -⟩ | hdeed :=
    returned_along Rely.keyed_governs hfits call mid hbefore hnone hafter hresult
  · exact absurd rfl (hnew i (hsame ▸ hi))
  obtain ⟨config, email, invitee, token, now, expiresAt, hcall, hsending⟩ :=
    hdeed.invitation_issued hi hnew
  obtain ⟨row, hseen, -⟩ := hsending.room
  obtain ⟨first, hfirst, hfound⟩ := hseen.along (fun s => s.findTeam i.teamId = some row)
  have hteams : next.world.store.teams = (began.run mid).world.store.teams := hsending.frame.1
  exact ⟨config, email, hcall,
    { found := ⟨first, hfirst, row, hfound⟩
      deleted := ⟨team, hteams ▸ hteam, hid, hdeleted⟩
      absent := hnew
      stored := ⟨i, hi, rfl⟩ }⟩

/-- An invitation to a deleted team that comes with the last event was sent late by
it. -/
theorem sent_late_of_new (clock : Instant) (random : RandomSource) {team : Team}
    (hi : i ∈ ((start clock random).run (events ++ [event])).world.store.invitations)
    (hnew : ∀ j ∈ ((start clock random).run events).world.store.invitations, j.id ≠ i.id)
    (hteam : team ∈ ((start clock random).run (events ++ [event])).world.store.teams)
    (hdeleted : team.status = .deleted) (hid : team.id = i.teamId) :
    (start clock random).SentLate (events ++ [event]) i := by
  have hcourse := (course_step Rely.keyed_governs (start_fits clock random events) event).1
  rw [← run_append_singleton] at hcourse
  obtain ⟨-, -, hsame⟩ | ⟨n, before, after, result, rfl, hbefore, hnone, hafter, hresult, -⟩ :=
    hcourse.rows_or_deed
  · exact absurd rfl (hnew i (hsame ▸ hi))
  -- the thread that brings it is followed from its beginning
  obtain ⟨early, mid, rfl, rfl⟩ := begun rfl events hbefore
  rw [run_append_singleton, run_append, run_cons] at hi hteam hafter
  rw [run_append, run_cons] at hnew hbefore
  obtain ⟨config, email, hcall, hwrites⟩ := writes_late (start_fits clock random early) hbefore
    hnone hafter hresult hi hnew hteam hdeleted hid
  rw [hcall] at hwrites ⊢
  exact ⟨early, mid, [], config, email, rfl, hwrites⟩

/-- A pending invitation whose team is deleted was sent late. -/
theorem sent_late_of_pending (clock : Instant) (random : RandomSource) (events : List Event)
    {team : Team} (hi : i ∈ ((start clock random).run events).world.store.invitations)
    (hpending : i.isPending = true)
    (hteam : team ∈ ((start clock random).run events).world.store.teams)
    (hdeleted : team.status = .deleted) (hid : team.id = i.teamId) :
    (start clock random).SentLate events i := by
  induction events using List.reverseRecOn generalizing i with
  | nil => exact absurd hi List.not_mem_nil
  | append_singleton events event ih =>
    have hfits := start_fits clock random events
    obtain ⟨hcourse, hfits', hlead⟩ := course_step Rely.keyed_governs hfits event
    rw [← run_append_singleton] at hcourse hfits' hlead
    by_cases hold : ∃ j ∈ ((start clock random).run events).world.store.invitations, j.id = i.id
    · -- an invitation that was there before was pending before, and its team deleted
      obtain ⟨j, hj, hjid⟩ := hold
      obtain ⟨j', hj', hoffer, hfinal⟩ := Tables.Evolves.invitations hlead j hj
      obtain ⟨hid', hteam', -⟩ := Invitation.offer_eq hoffer
      obtain rfl : j' = i := hfits'.inv.1.invitation_eq hj' hi (hid'.trans hjid)
      have hjpending : j.isPending = true := by
        by_contra hsettled
        rw [hfinal (Bool.eq_false_iff.mpr hsettled)] at hpending
        exact hsettled hpending
      have hbefore := hcourse.deleted_before hteam hdeleted hi hid.symm hpending
      have hlate := ih hj hjpending hbefore (hid.trans hteam')
      exact (hlate.append [event]).of_offer hoffer.symm
    · have hnew : ∀ j ∈ ((start clock random).run events).world.store.invitations, j.id ≠ i.id :=
        fun j hj hjid => hold ⟨j, hj, hjid⟩
      exact sent_late_of_new clock random hi hnew hteam hdeleted hid

/-- Whatever has happened, the pending invitations whose team is deleted are those
that were sent late: the call had found the team, and when it wrote the invitation the
team was deleted. -/
theorem pending_iff_sent_late (clock : Instant) (random : RandomSource) (events : List Event) :
    let tables := ((start clock random).run events).world.store
    ∀ i ∈ tables.invitations, i.isPending = true →
      ((∃ team ∈ tables.teams, team.id = i.teamId ∧ team.status = .deleted) ↔
        (start clock random).SentLate events i) := by
  intro tables i hi hpending
  constructor
  · rintro ⟨team, hteam, hid, hdeleted⟩
    exact sent_late_of_pending clock random events hi hpending hteam hdeleted hid
  · rintro ⟨early, mid, late, config, email, rfl, hwrites⟩
    obtain ⟨team, hteam, hid, hdeleted⟩ := hwrites.deleted
    rw [← run_cons, ← run_append] at hteam
    have hfits := start_fits clock random (early ++ .begins
      (.act config (.sendInvitation i.teamId i.invitedBy email i.role)) :: mid)
    have hlead := (fits_run Rely.keyed_governs hfits
      (.proceeds ((start clock random).run early).threads.length :: late)).2
    rw [← run_append] at hlead
    -- a deleted team is final
    obtain ⟨team', hteam', -, -, -, hfinal⟩ := Tables.Evolves.teams hlead team hteam
    obtain rfl := hfinal hdeleted
    exact ⟨team', hteam', hid, hdeleted⟩

/-- An invitation is sent, and the owner deletes the team right before it is
written. -/
def outrun : List Event :=
  rivals.take 14 ++ .begins (.act .default (.deleteTeam 1 7)) :: List.replicate 4 (.proceeds 2) ++
    [.proceeds 1]

theorem pending_on_deleted_team :
    ((start .epoch .sequence).run outrun).world.store.teams.map
        (fun team => (team.id, team.status)) = [(1, .deleted)] ∧
      ((start .epoch .sequence).run outrun).world.store.invitations.map
        (fun i => (i.teamId, i.status)) = [(1, .pending)] := by
  decide +kernel

theorem pending_iff_sent_late_of_outrun :
    ∃ i ∈ ((start .epoch .sequence).run outrun).world.store.invitations, i.isPending = true ∧
      (start .epoch .sequence).SentLate outrun i := by
  have hruns : ((start .epoch .sequence).run outrun).world.store.invitations.any (fun i =>
      i.isPending && ((start .epoch .sequence).run outrun).world.store.teams.any fun team =>
        team.id = i.teamId && team.status = .deleted) = true := by
    decide +kernel
  obtain ⟨i, hi, hrow⟩ := List.any_eq_true.mp hruns
  rw [Bool.and_eq_true, List.any_eq_true] at hrow
  obtain ⟨hpending, team, hteam, hkey⟩ := hrow
  rw [Bool.and_eq_true, decide_eq_true_eq, decide_eq_true_eq] at hkey
  have hlate := pending_iff_sent_late .epoch .sequence outrun
  dsimp only at hlate
  exact ⟨i, hi, hpending, (hlate i hi hpending).mp ⟨team, hteam, hkey⟩⟩

end Pool

end Roster
