import Roster.Proofs.Deed.Rows
import Roster.Proofs.History
import Roster.Proofs.Ledger

/-!
# Acceptances past the expiry

An acceptance compares the expiry with the time in a step of its own, and dates itself by
the time of the later step that enrols the user. If the clock passes the expiry between the
two, the invitation is accepted all the same, and dated past its expiry.

* `Call.Deed.invitation_accepted` — invitations are accepted by acceptances only, which
  date them by the time of the deed;
* `Pool.AcceptsLate`, `Pool.AcceptedLate` — the expiry was compared in time, and passed when
  the acceptance was written;
* `Pool.past_expiry_iff_accepted_late` — the accepted invitations with a date past their
  expiry are those;
* `Pool.accepted_past_expiry` — and there may be some.
-/

namespace Roster

section

variable {rely : Rely} {call : Call} {w : World Tables} {s s' : Tables}
  {result : Except Failure Answer} {i : Invitation}

/-- A row that a settlement brings is the one that was found, settled. -/
theorem Tables.settleInvitation_brings {id : Int} {status : InvitationStatus} {now : Instant}
    {settled : Invitation} (h : s.settleInvitation id status now = .ok (some settled, s'))
    (hi : i ∈ s'.invitations) (hnew : i ∉ s.invitations) :
    ∃ found ∈ s.invitations, found.id = id ∧ i = found.settle status now := by
  obtain ⟨found, hfound, -, rfl, rfl⟩ := settleInvitation_ok h
  obtain ⟨hmem, hid⟩ := findInvitation_some hfound
  obtain ⟨j, hj, rfl⟩ := List.mem_map.mp hi
  split at hnew
  · rename_i hsame
    rw [if_pos hsame]
    exact ⟨found, hmem, hid, rfl⟩
  · exact absurd hj hnew

/-- A row that a sweep brings has the status to which it moves. -/
theorem Tables.settleAll_brings {p : Invitation → Bool} {status : InvitationStatus} {count : Nat}
    (h : s.settleAll p status = (count, s')) (hi : i ∈ s'.invitations)
    (hnew : i ∉ s.invitations) : i.status = status := by
  obtain ⟨-, rfl⟩ := settleAll_eq h
  obtain ⟨j, hj, rfl⟩ := List.mem_map.mp hi
  split at hnew
  · rename_i hmoves
    rw [if_pos hmoves]
  · exact absurd hj hnew

/-- An acceptance brings the invitation that was presented, dated by the time of the deed. -/
theorem Acceptance.brings (horderly : rely.Orderly) (hinv : rely.inv w) {token : Secret}
    {user : Int} {email : String} {invitation : Invitation} {member : Member}
    (h : Acceptance rely token user email invitation w s member)
    (hi : i ∈ s.invitations) (hnew : i ∉ w.store.invitations) :
    i.acceptedAt = some w.clock ∧ i.expiresAt = invitation.expiresAt := by
  obtain ⟨joined, accepted, hsame, hsettle⟩ := h.settlement
  rw [← hsame] at hnew
  obtain ⟨found, hfound, hid, rfl⟩ := Tables.settleInvitation_brings hsettle hi hnew
  obtain ⟨-, stored, hstored, hoffer⟩ := h.presented.stored horderly
  obtain ⟨hstoredId, -, -, -, -, hexpires⟩ := Invitation.offer_eq hoffer
  rw [hsame] at hfound
  have heq : found = stored :=
    (horderly.keyed hinv).invitation_eq hfound hstored (hid.trans hstoredId.symm)
  exact ⟨rfl, heq ▸ hexpires⟩

/-- Invitations are accepted by acceptances only. -/
theorem Call.Deed.invitation_accepted (horderly : rely.Orderly) (hinv : rely.inv w)
    (h : call.Deed rely w s result) (hi : i ∈ s.invitations) (hnew : i ∉ w.store.invitations)
    (haccepted : i.status = .accepted) :
    i.acceptedAt = some w.clock ∧ ∃ config token user email,
      call = .act config (.acceptInvitation token user email) ∧
      rely.Seen w fun v => ¬ i.expiresAt < v.clock := by
  -- every other deed brings rows of another status
  have hother : ∀ {status}, i.status = status → status = .accepted := fun heq => heq ▸ haccepted
  rcases h.invitations with heq | hdeed
  · exact absurd (heq ▸ hi) hnew
  · cases hdeed with
    | dissolves h =>
      obtain ⟨deleted, heq, hsettle⟩ := h.sweep
      cases hother (Tables.settleAll_brings hsettle hi (heq ▸ hnew))
    | sends h =>
      obtain ⟨-, -, rfl, heq⟩ := Tables.createInvitation_ok h.written
      rw [heq] at hi
      rcases List.mem_append.mp hi with hold | hsent
      · exact absurd hold hnew
      · rw [List.mem_singleton.mp hsent] at haccepted
        cases haccepted
    | @accepts config token user email invitation _ _ member h =>
      obtain ⟨hdated, hexpires⟩ := h.brings horderly hinv hi hnew
      refine ⟨hdated, config, token, user, email, rfl, h.unexpired.imp ?_⟩
      intro v hv
      rw [hexpires]
      exact of_decide_eq_false hv
    | lapses h =>
      obtain ⟨now, lapsed, hsettle⟩ := h.written
      obtain ⟨found, -, -, rfl⟩ := Tables.settleInvitation_brings hsettle hi hnew
      cases haccepted
    | rejects h =>
      obtain ⟨now, hsettle⟩ := h.written
      obtain ⟨found, -, -, rfl⟩ := Tables.settleInvitation_brings hsettle hi hnew
      cases haccepted
    | revokes h =>
      obtain ⟨now, hsettle⟩ := h.written
      obtain ⟨found, -, -, rfl⟩ := Tables.settleInvitation_brings hsettle hi hnew
      cases haccepted
    | sweeps h => cases hother (Tables.settleAll_brings h.written hi hnew)

end

/-- A call to accept an invitation that began in a pool compares its expiry in time, but
the clock passes it before the call writes the acceptance after the given events. -/
structure Pool.AcceptsLate (began : Pool) (thread : Nat) (mid : List Event) (i : Invitation) :
    Prop where
  compared : ∃ first, first <+: mid ∧ ¬ i.expiresAt < (began.run first).world.clock
  passed : i.expiresAt < (began.run mid).world.clock
  absent : i ∉ (began.run mid).world.store.invitations
  stored : i ∈ ((began.run mid).step (.proceeds thread)).world.store.invitations
  dated : i.acceptedAt = some (began.run mid).world.clock

/-- An invitation was accepted although its expiry had passed. -/
def Pool.AcceptedLate (initial : Pool) (events : List Event) (i : Invitation) : Prop :=
  ∃ early mid late config token user email,
    let call : Call := .act config (.acceptInvitation token user email)
    let thread := (initial.run early).threads.length
    events = early ++ .begins call :: mid ++ .proceeds thread :: late ∧
      ((initial.run early).step (.begins call)).AcceptsLate thread mid i

namespace Pool

variable {initial pool : Pool} {event : Event} {events : List Event} {i : Invitation}

/-- What was accepted late stays so. -/
theorem AcceptedLate.append (h : initial.AcceptedLate events i) (more : List Event) :
    initial.AcceptedLate (events ++ more) i := by
  obtain ⟨early, mid, late, config, token, user, email, rfl, haccepts⟩ := h
  refine ⟨early, mid, late ++ more, config, token, user, email, ?_, haccepts⟩
  simp only [List.append_assoc, List.cons_append]

/-- A call that began in a pool and brings an accepted invitation dates it by its last
step; if that lies past the expiry, it accepts late. -/
theorem accepts_late (hfits : pool.Fits (Rely.among fun _ => True)) {call : Call}
    {mid : List Event} {before after : Thread} {result : Except Failure Answer} :
    let began := pool.step (.begins call)
    let next := (began.run mid).step (.proceeds pool.threads.length)
    (began.run mid).threads[pool.threads.length]? = some before → before.result? = none →
    next.threads[pool.threads.length]? = some after → after.result? = some result →
    i ∈ next.world.store.invitations → i ∉ (began.run mid).world.store.invitations →
    i.status = .accepted →
    i.acceptedAt = some (began.run mid).world.clock ∧
      (i.expiresAt < (began.run mid).world.clock → ∃ config token user email,
        call = .act config (.acceptInvitation token user email) ∧
        began.AcceptsLate pool.threads.length mid i) := by
  intro began next hbefore hnone hafter hresult hi hnew haccepted
  obtain ⟨hsame, -⟩ | hdeed :=
    returned_along Rely.keyed_governs hfits call mid hbefore hnone hafter hresult
  · exact absurd (hsame ▸ hi) hnew
  have hbegan := (course_step Rely.keyed_governs hfits (.begins call)).2.1
  have hpool := (fits_run Rely.keyed_governs hbegan mid).1
  have horderly : ((Rely.among fun _ => True).along began mid).Orderly :=
    { keyed := fun hinv => hinv.1.1, evolves := fun hlead => hlead }
  obtain ⟨hdated, config, token, user, email, hcall, hcompared⟩ := hdeed.invitation_accepted
    horderly ⟨hpool.inv, mid, List.prefix_rfl, rfl, rfl⟩ hi hnew haccepted
  refine ⟨hdated, ?_⟩
  intro hpassed
  obtain ⟨v, ⟨-, first, hfirst, -, hclock⟩, -, hintime⟩ := hcompared
  exact ⟨config, token, user, email, hcall,
    { compared := ⟨first, hfirst, hclock ▸ hintime⟩
      passed := hpassed
      absent := hnew
      stored := hi
      dated := hdated }⟩

/-- An accepted invitation has a date, and if that lies past its expiry it was accepted
late. -/
theorem accepted_late_of_past_expiry (clock : Instant) (random : RandomSource)
    (events : List Event) (hi : i ∈ ((start clock random).run events).world.store.invitations)
    (haccepted : i.status = .accepted) :
    ∃ time, i.acceptedAt = some time ∧
      (i.expiresAt < time → (start clock random).AcceptedLate events i) := by
  induction events using List.reverseRecOn with
  | nil => exact absurd hi List.not_mem_nil
  | append_singleton events event ih =>
    by_cases hold : i ∈ ((start clock random).run events).world.store.invitations
    · -- what was accepted before has its date since then
      obtain ⟨time, hdated, hlate⟩ := ih hold
      exact ⟨time, hdated, fun hpast => (hlate hpast).append [event]⟩
    · have hcourse := (course_step Rely.keyed_governs (start_fits clock random events) event).1
      rw [← run_append_singleton] at hcourse
      obtain ⟨-, -, hsame⟩ | ⟨n, before, after, result, rfl, hbefore, hnone, hafter, hresult, -⟩ :=
        hcourse.rows_or_deed
      · exact absurd (hsame ▸ hi) hold
      -- the thread that accepts it is followed from its beginning
      obtain ⟨early, mid, rfl, rfl⟩ := begun rfl events hbefore
      rw [run_append_singleton, run_append, run_cons] at hi hafter
      rw [run_append, run_cons] at hold hbefore
      obtain ⟨hdated, hlate⟩ := accepts_late (start_fits clock random early) hbefore hnone hafter
        hresult hi hold haccepted
      refine ⟨_, hdated, ?_⟩
      intro hpast
      obtain ⟨config, token, user, email, hcall, haccepts⟩ := hlate hpast
      rw [hcall] at haccepts ⊢
      exact ⟨early, mid, [], config, token, user, email, rfl, haccepts⟩

/-- Whatever has happened, every accepted invitation has a date, and it lies past the expiry
exactly if the invitation was accepted late: the call had compared the expiry in time, and the
clock passed it before the call wrote the acceptance. -/
theorem past_expiry_iff_accepted_late (clock : Instant) (random : RandomSource)
    (events : List Event) :
    ∀ i ∈ ((start clock random).run events).world.store.invitations, i.status = .accepted →
      ∃ time, i.acceptedAt = some time ∧
        (i.expiresAt < time ↔ (start clock random).AcceptedLate events i) := by
  intro i hi haccepted
  obtain ⟨time, hdated, hlate⟩ := accepted_late_of_past_expiry clock random events hi haccepted
  refine ⟨time, hdated, hlate, ?_⟩
  rintro ⟨early, mid, late, config, token, user, email, -, haccepts⟩
  have hpassed := haccepts.passed
  obtain rfl : (_ : Instant) = time := Option.some.inj (haccepts.dated.symm.trans hdated)
  exact hpassed

/-- The addressee compares the expiry in time, the clock passes it, and then the addressee
is enrolled. -/
def overtaken : List Event :=
  rivals ++ [.setClock ⟨700000, 0, by decide, by decide⟩, .proceeds 2]

theorem overtaken_dated :
    ∃ i ∈ ((start .epoch .sequence).run overtaken).world.store.invitations,
      i.status = .accepted ∧ ∃ time, i.acceptedAt = some time ∧ i.expiresAt < time := by
  have hruns : ((start .epoch .sequence).run overtaken).world.store.invitations.any (fun i =>
      i.status = .accepted && i.acceptedAt.any fun time => i.expiresAt < time) = true := by
    decide +kernel
  obtain ⟨i, hi, hrow⟩ := List.any_eq_true.mp hruns
  rw [Bool.and_eq_true, decide_eq_true_eq, Option.any_eq_true] at hrow
  obtain ⟨haccepted, time, hdated, hpast⟩ := hrow
  exact ⟨i, hi, haccepted, time, hdated, of_decide_eq_true hpast⟩

/-- So it is not so that every accepted invitation has a date up to its expiry. -/
theorem accepted_past_expiry :
    ¬ ∀ i ∈ ((start .epoch .sequence).run overtaken).world.store.invitations,
      i.status = .accepted → ∃ time, i.acceptedAt = some time ∧ time ≤ i.expiresAt := by
  intro hclaim
  obtain ⟨i, hi, haccepted, time, hdated, hpast⟩ := overtaken_dated
  obtain ⟨time', hdated', hintime⟩ := hclaim i hi haccepted
  obtain rfl : time = time' := Option.some.inj (hdated.symm.trans hdated')
  exact Instant.not_le.mpr hpast hintime

theorem past_expiry_iff_accepted_late_of_overtaken :
    ∃ i ∈ ((start .epoch .sequence).run overtaken).world.store.invitations,
      i.status = .accepted ∧ (start .epoch .sequence).AcceptedLate overtaken i := by
  obtain ⟨i, hi, haccepted, time, hdated, hpast⟩ := overtaken_dated
  obtain ⟨time', hdated', hiff⟩ :=
    past_expiry_iff_accepted_late .epoch .sequence overtaken i hi haccepted
  obtain rfl : time = time' := Option.some.inj (hdated.symm.trans hdated')
  exact ⟨i, hi, haccepted, hiff.mp hpast⟩

end Pool

end Roster
