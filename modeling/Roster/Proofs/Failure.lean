import Roster.Proofs.Ledger

/-!
# Failures leave no trace

* `Call.Residue` — what a failed call may leave behind: nothing, but that an
  accept that reports an expiry may have written that expiry down;
* `Call.Deed.residue` — a deed with a failure behind it leaves no more, and
  `Call.run_residue` — nor does a call that is run alone;
* `Pool.Course.residue` — among others a thread that has not returned has
  written nothing, and the step with which it fails leaves a residue only;
* `Pool.failure_atomic` — both of pools that start on an empty store.
-/

namespace Roster

/-- The tables with one invitation marked as expired. -/
def Tables.lapse (s : Tables) (invitation : Int) : Tables :=
  { s with
    invitations := s.invitations.map fun i =>
      if i.id = invitation then { i with status := .expired } else i }

/-- What a failed call may leave behind. The invitation that lapses is the one
that the failure names, and it was pending. -/
inductive Call.Residue : Call → Failure → Tables → Tables → Prop
  | nothing {call : Call} {failure : Failure} {s : Tables} : Residue call failure s s
  | lapse {config : Config} {token : Secret} {user : Int} {email : String} {i : Invitation}
    {s : Tables} : i ∈ s.invitations → i.status = .pending →
    (∀ j ∈ s.invitations, j.id = i.id → j = i) →
    Residue (.act config (.acceptInvitation token user email))
      (.error (.invitationExpired i.id)) s (s.lapse i.id)

section

variable {rely : Rely} {call : Call} {w : World Tables} {s : Tables} {failure : Failure}

/-- An expiry is written down in the status of one invitation. -/
theorem Lapse.residue (hk : w.store.Keyed) {config : Config} {token : Secret} {user : Int}
    {email : String} {invitation : Invitation} (h : Lapse rely token email invitation w s) :
    Call.Residue (.act config (.acceptInvitation token user email))
      (.error (.invitationExpired invitation.id)) w.store s := by
  obtain ⟨now, lapsed, hsettle⟩ := h.written
  obtain ⟨found, hfound, hpending, rfl, rfl⟩ := Tables.settleInvitation_ok hsettle
  obtain ⟨hmem, hid⟩ := Tables.findInvitation_some hfound
  have honly : ∀ j ∈ w.store.invitations, j.id = found.id → j = found :=
    fun j hj hjid => hk.invitation_eq hj hmem hjid
  -- the row that is written back is the one that was there, under a new status
  have hrows : (w.store.invitations.map fun i =>
        if i.id = found.id then found.settle .expired now else i) =
      w.store.invitations.map fun i =>
        if i.id = found.id then { i with status := .expired } else i := by
    refine List.map_congr_left ?_
    intro i hi
    by_cases hsame : i.id = found.id
    · rw [if_pos hsame, if_pos hsame, honly i hi hsame]
      rfl
    · rw [if_neg hsame, if_neg hsame]
  rw [← hid, hrows]
  exact .lapse hmem (Invitation.isPending_iff.mp hpending) honly

/-- Of all deeds only a lapse comes with a failure. -/
theorem Call.Deed.residue (hk : w.store.Keyed) (h : call.Deed rely w s (.error failure)) :
    call.Residue failure w.store s := by
  cases h with
  | lapses h => exact h.residue hk

/-- A call that is run alone and fails leaves a residue only. -/
theorem Call.run_residue (call : Call) (hk : w.store.Keyed)
    (hfails : (call.program.run w).result = .error failure) :
    call.Residue failure w.store (call.program.run w).world.store := by
  have hinv : (Rely.among fun _ => True).inv w := ⟨hk, trivial⟩
  obtain ⟨-, ⟨hsame, -⟩ | ⟨v, hstore, -, hinv', -, hdeed⟩⟩ := (call.abides hinv).run hinv
  · rw [hsame]
    exact .nothing
  · rw [hfails] at hdeed
    rw [← hstore]
    exact hdeed.residue hinv'.1

end

namespace Pool

/-- A step of a thread writes nothing unless the thread returns with it, and a
residue only if it returns with a failure. -/
theorem Course.residue {rely : Rely} {pool pool' : Pool} {i : Nat}
    (hk : pool.world.store.Keyed) (hcourse : Course rely pool (.proceeds i) pool')
    {thread : Thread} (hthread : pool'.threads[i]? = some thread) :
    (thread.result? = none → pool'.world.store = pool.world.store) ∧
      ∀ failure, thread.result? = some (.error failure) →
        thread.call.Residue failure pool.world.store pool'.world.store := by
  cases hcourse with
  | surroundings hnone => cases hnone
  | misses => exact ⟨fun _ => rfl, fun _ _ => .nothing⟩
  | idles => exact ⟨fun _ => rfl, fun _ _ => .nothing⟩
  | acts random _ hcall _ hout hdeed =>
    rcases getElem?_set_cases hthread with ⟨-, rfl⟩ | ⟨hne, -⟩
    · rw [hout, hcall]
      constructor
      · intro hnone
        cases hnone
      · intro failure hfails
        rw [Option.some.inj hfails] at hdeed
        exact hdeed.residue hk
    · exact absurd rfl hne

/-- Whatever has happened, a call that is then run alone and fails leaves the
tables as they were, but for the expiry that an accept writes down as it reports
it. Among others a thread writes nothing before the step with which it returns,
and if it returns with a failure, that step leaves no more behind either. -/
theorem failure_atomic (clock : Instant) (random : RandomSource) (events : List Event) :
    let pool := (start clock random).run events
    (∀ (call : Call) (failure : Failure),
      (call.program.run pool.world).result = .error failure →
      call.Residue failure pool.world.store (call.program.run pool.world).world.store) ∧
    ∀ (i : Nat) (thread : Thread), (pool.step (.proceeds i)).threads[i]? = some thread →
      (thread.result? = none → (pool.step (.proceeds i)).world.store = pool.world.store) ∧
      ∀ failure, thread.result? = some (.error failure) →
        thread.call.Residue failure pool.world.store (pool.step (.proceeds i)).world.store := by
  intro pool
  have hfits := start_fits clock random events
  constructor
  · intro call failure hfails
    exact call.run_residue hfits.inv.1 hfails
  · intro i thread hthread
    have hcourse := (course_step Rely.keyed_governs hfits (.proceeds i)).1
    exact hcourse.residue hfits.inv.1 hthread

/-- A founder's call writes nothing while it reads; the store fails as an accept settles
the invitation, after it has enrolled the user; and an accept that comes after the expiry
writes that down. -/
theorem failure_atomic_of_failing_store :
    let late : Instant := ⟨2000000, 0, by decide, by decide⟩
    let accept : Call := .act .default
      (.acceptInvitation ⟨(RandomSource.sequence.token 32).1⟩ 1 "ann@example.org")
    let reading := (start .epoch .sequence).run (rivals.take 3)
    let broken := (start .epoch .sequence).run (rivals ++ [.failSettling true])
    let lapsed := (start .epoch .sequence).run (rivals ++ [.setClock late])
    (∃ thread, (reading.step (.proceeds 0)).threads[0]? = some thread ∧
      thread.result? = none ∧
      (reading.step (.proceeds 0)).world.store = reading.world.store) ∧
    (∃ thread failure, (broken.step (.proceeds 2)).threads[2]? = some thread ∧
      thread.result? = some (.error failure) ∧
      thread.call.Residue failure broken.world.store (broken.step (.proceeds 2)).world.store) ∧
    ∃ failure, (accept.program.run lapsed.world).result = .error failure ∧
      (accept.program.run lapsed.world).world.store.invitations.map (·.status) = [.expired] ∧
      accept.Residue failure lapsed.world.store (accept.program.run lapsed.world).world.store := by
  intro late accept reading broken lapsed
  have hruns : (reading.step (.proceeds 0)).threads[0]?.any (·.result?.isNone) = true ∧
      (broken.step (.proceeds 2)).threads[2]?.any
        (fun thread => thread.result?.any fun result => !result.isOk) = true ∧
      (accept.program.run lapsed.world).result.isOk = false ∧
      (accept.program.run lapsed.world).world.store.invitations.map (·.status) = [.expired] := by
    decide +kernel
  simp only [Option.any_eq_true, Option.isNone_iff_eq_none] at hruns
  obtain ⟨⟨waiting, hwaiting, hnone⟩, ⟨thread, hthread, result, hresult, hbroken⟩, hlapsed,
    hexpired⟩ := hruns
  refine ⟨⟨waiting, hwaiting, hnone, ?_⟩, ?_, ?_⟩
  · have hatomic := failure_atomic .epoch .sequence (rivals.take 3)
    exact (hatomic.2 0 waiting hwaiting).1 hnone
  · cases result with
    | ok answer => cases hbroken
    | error failure =>
      have hatomic := failure_atomic .epoch .sequence (rivals ++ [.failSettling true])
      exact ⟨thread, failure, hthread, hresult, (hatomic.2 2 thread hthread).2 failure hresult⟩
  · cases hfails : (accept.program.run lapsed.world).result with
    | ok answer =>
      rw [hfails] at hlapsed
      cases hlapsed
    | error failure =>
      have hatomic := failure_atomic .epoch .sequence (rivals ++ [.setClock late])
      exact ⟨failure, rfl, hexpired, hatomic.1 accept failure hfails⟩

end Pool

end Roster
