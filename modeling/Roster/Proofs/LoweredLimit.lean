import Roster.Proofs.Admission
import Roster.Proofs.Capacity
import Roster.Proofs.History

/-!
# Lowered limits

An update counts the members before it writes the limit, in steps of their own, and
somebody may be let in between the two.

* `Update.counted` — at some time since the call began the team had no more
  members than the limit that is written;
* `Pool.removals_run_le` — removals are never taken back;
* `Pool.lowered_limit` — so the members beyond a limit that was just written are
  those who were let in since the count, and there are none if nobody was;
* `Pool.lowered_limit_undercut` — otherwise there may be.
-/

namespace Roster

theorem UpdateTeam.revise_memberLimit {input : UpdateTeam} {limit : UInt32}
    (hgiven : input.memberLimit = some limit) (name : Option String) (team : Team)
    (now : Instant) : (input.revise name team now).memberLimit = limit := by
  simp only [revise, hgiven, Option.elim_some]

section

variable {rely : Rely} {w : World Tables} {s : Tables} {input : UpdateTeam}
  {name : Option String} {before : Team} {now : Instant} {team : Team} {limit : UInt32}

/-- An update writes the limit that it is given. -/
theorem Update.limit_written (h : Update rely input name before now w s team)
    (hgiven : input.memberLimit = some limit) :
    ∃ row ∈ s.teams, row.id = input.teamId ∧ row.memberLimit = limit := by
  obtain ⟨v, -, -, hfound⟩ := h.found
  obtain ⟨-, hid, -⟩ := Tables.findTeam_some hfound
  obtain ⟨⟨old, hold⟩, -, -, rfl⟩ := Tables.updateTeam_ok h.written
  obtain ⟨hmem, hoid, -⟩ := Tables.findTeam_some hold
  refine ⟨_, List.mem_map.mpr ⟨old, hmem, if_pos hoid⟩, ?_,
    UpdateTeam.revise_memberLimit hgiven name before now⟩
  rw [UpdateTeam.revise_id, hid]

/-- An update that sets a limit has counted the members of the stored team, and
there were no more. -/
theorem Update.counted {pool : Pool} {events : List Event}
    (h : Update ((Rely.among fun s => s.Owned ∧ s.Counted).along pool events) input name before now
      w s team) (hgiven : input.memberLimit = some limit) :
    ∃ first, first <+: events ∧
      (∃ row ∈ (pool.run first).world.store.teams, row.id = input.teamId) ∧
      (pool.run first).world.store.membersOf input.teamId ≤ limit.toNat := by
  obtain ⟨-, v, ⟨hinv, first, hfirst, hstore, -⟩, -, hcount, u, -, hlead, hfound⟩ :=
    h.limited limit hgiven
  obtain ⟨hmem, hid, -⟩ := Tables.findTeam_some hfound
  -- the team had been found before its members were counted
  obtain ⟨row, hrow, hrid, -⟩ := Tables.Evolves.teams hlead before hmem
  have hle := UInt32.le_iff_toNat_le.mp hcount
  rw [Tables.countMembers_toNat, Nat.min_eq_left (hinv.2.2 before.id), hid] at hle
  refine ⟨first, hfirst, ?_⟩
  rw [hstore]
  exact ⟨⟨row, hrow, hrid.trans hid⟩, hle⟩

end

namespace Pool

variable {rely : Rely} {pool pool' : Pool} {event : Event}

/-- Removals are never taken back. -/
theorem Course.removals_le (hcourse : Course rely pool event pool') (team : Int) :
    pool.removals team ≤ pool'.removals team := by
  cases hcourse with
  | begins call =>
    rw [removals, removals, List.countP_append]
    exact Nat.le_add_right _ _
  | surroundings => exact Nat.le_refl _
  | misses => exact Nat.le_refl _
  | @idles i before after random hbefore hcall hresult =>
    have hset := removals_set team after { pool.world with random } hbefore
    have hkept : before.removedFrom team = true → after.removedFrom team = true := by
      intro hremoved
      rcases hresult with hsame | ⟨hnone, -⟩
      · rwa [Thread.removedFrom, hcall, hsame]
      · rw [Thread.removedFrom, hnone, Option.any_none, Bool.and_false] at hremoved
        cases hremoved
    by_cases hremoved : before.removedFrom team = true
    · rw [if_pos hremoved, if_pos (hkept hremoved)] at hset
      omega
    · rw [if_neg hremoved] at hset
      omega
  | @acts i before after s result random hbefore _ hnone =>
    have hset := removals_set team after { pool.world with store := s, random } hbefore
    rw [Thread.removedFrom, hnone, Option.any_none, Bool.and_false,
      if_neg Bool.false_ne_true] at hset
    omega

theorem removals_run_le (hgoverns : rely.Governs) (hfits : pool.Fits rely) (events : List Event)
    (team : Int) : pool.removals team ≤ (pool.run events).removals team := by
  induction events using List.reverseRecOn with
  | nil => exact Nat.le_refl _
  | append_singleton events event ih =>
    have hpool := (fits_run hgoverns hfits events).1
    have hstep := (course_step hgoverns hpool event).1.removals_le team
    rw [run_append_singleton]
    exact Nat.le_trans ih hstep

/-- From one time to a later one the members of a team change by who is let in and who
is removed. -/
theorem Balanced.since (hgoverns : rely.Governs) (horderly : rely.Orderly)
    (hfits : pool.Fits rely) (h : pool.Balanced) (late : List Event) {id : Int}
    (hstored : ∃ row ∈ pool.world.store.teams, row.id = id) :
    (pool.run late).world.store.membersOf id + pool.world.store.admitted id +
        (pool.run late).removals id =
      pool.world.store.membersOf id + (pool.run late).world.store.admitted id +
        pool.removals id := by
  obtain ⟨row, hrow, rfl⟩ := hstored
  obtain ⟨hlater, hlead⟩ := fits_run hgoverns hfits late
  obtain ⟨kept, hkept, hid, -⟩ := (horderly.evolves hlead).teams row hrow
  have hbefore := h.membersOf_eq (horderly.keyed hfits.inv) hrow
  have hafter := (h.run hgoverns horderly hfits late).membersOf_eq
    (horderly.keyed hlater.inv) hkept
  rw [hid] at hafter
  omega

/-- An update that sets a limit returns with a success only if the team had no more
members at some time while the call ran. Since then they have changed by who was let
in and who was removed; so if nobody was let in while the call ran, the team has no
more members than the limit that was just written. -/
theorem lowered_limit (clock : Instant) (random : RandomSource) (early mid : List Event)
    (config : Config) (input : UpdateTeam) (limit : UInt32) (before after : Thread)
    (answer : Answer) :
    let i := ((start clock random).run early).threads.length
    let began := ((start clock random).run early).step (.begins (.act config (.updateTeam input)))
    let next := (began.run mid).step (.proceeds i)
    let members (pool : Pool) := pool.world.store.membersOf input.teamId
    let admitted (pool : Pool) := pool.world.store.admitted input.teamId
    let removals (pool : Pool) := pool.removals input.teamId
    input.memberLimit = some limit →
    (began.run mid).threads[i]? = some before → before.result? = none →
    next.threads[i]? = some after → after.result? = some (.ok answer) →
    (∃ row ∈ next.world.store.teams, row.id = input.teamId ∧ row.memberLimit = limit) ∧
    (∃ first, first <+: mid ∧ members (began.run first) ≤ limit.toNat ∧
      removals (began.run first) ≤ removals next ∧
      members next + admitted (began.run first) + removals next =
        members (began.run first) + admitted next + removals (began.run first)) ∧
    ((∀ first, first <+: mid → admitted (began.run first) = admitted next) →
      members next ≤ limit.toNat) := by
  intro i began next members admitted removals hgiven hbefore hnone hafter hresult
  have hearly := counted_fits clock random early
  obtain ⟨-, hquiet⟩ | hdeed :=
    returned_along Rely.counted_governs hearly _ mid hbefore hnone hafter hresult
  · cases hquiet.onlyReads_of_ok
  cases hdeed with
  | updates h =>
    obtain ⟨first, hfirst, hstored, hcount⟩ := h.counted hgiven
    have hcounted : (began.run first).Fits (Rely.among fun s => s.Owned ∧ s.Counted) :=
      (fits_run Rely.counted_governs hearly (.begins _ :: first)).1
    have hbalanced : (began.run first).Balanced :=
      (balanced_run clock random early).run Rely.counted_governs (Rely.among_orderly _) hearly
        (.begins _ :: first)
    -- from the time of the count the run goes on to the write
    obtain ⟨rest, hrest⟩ := id hfirst
    have hnext : (began.run first).run (rest ++ [.proceeds i]) = next := by
      rw [run_append_singleton, ← run_append, hrest]
    have hwithin : members (began.run first) ≤ limit.toNat := hcount
    have hremoved : removals (began.run first) ≤ removals next := by
      rw [← hnext]
      exact removals_run_le Rely.counted_governs hcounted _ input.teamId
    have hsince : members next + admitted (began.run first) + removals next =
        members (began.run first) + admitted next + removals (began.run first) := by
      rw [← hnext]
      exact hbalanced.since Rely.counted_governs (Rely.among_orderly _) hcounted _ hstored
    refine ⟨h.limit_written hgiven, ⟨first, hfirst, hwithin, hremoved, hsince⟩, ?_⟩
    intro hnobody
    have hadmitted := hnobody first hfirst
    omega

/-- The owner wants the team for the owner alone. -/
def ownerAlone : UpdateTeam :=
  { teamId := 1
    requesterId := 7
    name := none
    description := none
    visibility := none
    memberLimit := some 1 }

/-- The owner's call begins while an invitation to the team is about to be
accepted. -/
def lowering : Pool :=
  ((start .epoch .sequence).run rivals).step (.begins (.act .default (.updateTeam ownerAlone)))

/-- The owner's call counts the members, and its next step is the write. -/
def counting : List Event := List.replicate 4 (.proceeds 4)

theorem lowered_limit_of_owner_alone :
    ∃ before after answer, (lowering.run counting).threads[4]? = some before ∧
      before.result? = none ∧
      ((lowering.run counting).step (.proceeds 4)).threads[4]? = some after ∧
      after.result? = some (.ok answer) ∧
      ((lowering.run counting).step (.proceeds 4)).world.store.membersOf 1 ≤ 1 := by
  have hruns : ((start .epoch .sequence).run rivals).threads.length = 4 ∧
      (lowering.run counting).threads[4]?.any (·.result?.isNone) = true ∧
      ((lowering.run counting).step (.proceeds 4)).threads[4]?.any
        (fun thread => thread.result?.any Except.isOk) = true ∧
      ∀ n < 5, (lowering.run (counting.take n)).world.store.admitted 1 =
        ((lowering.run counting).step (.proceeds 4)).world.store.admitted 1 := by
    decide +kernel
  obtain ⟨hlength, hpending, hreturns, hnobody⟩ := hruns
  simp only [Option.any_eq_true, Option.isNone_iff_eq_none] at hpending hreturns
  obtain ⟨before, hbefore, hnone⟩ := hpending
  obtain ⟨after, hafter, result, hresult, hok⟩ := hreturns
  cases result with
  | error failure => cases hok
  | ok answer =>
    have hlimit := lowered_limit .epoch .sequence rivals counting .default ownerAlone 1 before
      after answer
    rw [hlength, ← lowering] at hlimit
    obtain ⟨-, -, hwithin⟩ := hlimit rfl hbefore hnone hafter hresult
    dsimp only [ownerAlone] at hwithin
    refine ⟨before, after, answer, hbefore, hnone, hafter, hresult, hwithin ?_⟩
    intro first hfirst
    rw [List.prefix_iff_eq_take.mp hfirst]
    exact hnobody first.length (Nat.lt_succ_of_le hfirst.length_le)

/-- The addressee is enrolled between the count and the write, and the limit is written
below the number of members. -/
theorem lowered_limit_undercut :
    (lowering.run (counting ++ [.proceeds 2])).threads[4]?.any (·.result?.isNone) = true ∧
      ((lowering.run (counting ++ [.proceeds 2])).step (.proceeds 4)).threads[4]?.any
        (fun thread => thread.result?.any Except.isOk) = true ∧
      ((lowering.run (counting ++ [.proceeds 2])).step (.proceeds 4)).world.store.teams.map
        (fun team => (team.id, team.memberLimit)) = [(1, 1)] ∧
      ((lowering.run (counting ++ [.proceeds 2])).step (.proceeds 4)).world.store.membersOf 1 =
        2 := by
  decide +kernel

end Pool

end Roster
