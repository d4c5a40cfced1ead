import Roster.Proofs.Deed.Rows
import Roster.Proofs.Ledger
import Roster.Proofs.Tables.Balance

/-!
# Members, invitations and removals in balance

Three tables and the results of the calls tell of the same people: whoever is a
member founded the team or accepted an invitation to it, and whoever did so and
is no member was removed by a call that reported it.

* `Pool.removals` — the calls that removed somebody from a team;
* `Pool.Balanced` — the excess of every team is what was removed from it;
* `Pool.admission_conserved` — pools that start on an empty store are in
  balance, no token admits twice, and nobody joins without an invitation.
-/

namespace Roster

/-- Whether a call removes members from a team. -/
def Call.removesFrom (team : Int) (call : Call) : Bool :=
  call.removal?.any fun removal => removal.1 = team

/-- Whether a thread has removed somebody from a team. -/
def Thread.removedFrom (team : Int) (thread : Thread) : Bool :=
  thread.call.removesFrom team && thread.result?.any Except.isOk

/-- Whether a thread has joined a team by a token. -/
def Thread.joinedBy (token : Secret) (thread : Thread) : Bool :=
  thread.result?.any Except.isOk &&
    match thread.call with
    | .act _ (.acceptInvitation presented _ _) => presented = token
    | _ => false

/-- How somebody comes to a team between two states of the tables: they found it,
or an invitation to it at their role is pending before and accepted after. -/
def Tables.Admits (before after : Tables) (m : Member) : Prop :=
  (∃ team ∈ after.teams, team.id = m.teamId ∧ team.ownerId = m.userId ∧
    ∀ old ∈ before.teams, old.id ≠ m.teamId) ∨
  ∃ i ∈ before.invitations, i.isPending = true ∧ i.teamId = m.teamId ∧ i.role = m.role ∧
    ∃ i' ∈ after.invitations, i'.offer = i.offer ∧ i'.status = .accepted

/-- The calls that removed somebody from a team. -/
def Pool.removals (pool : Pool) (team : Int) : Nat :=
  pool.threads.countP (·.removedFrom team)

section

variable {rely : Rely} {call : Call} {w : World Tables} {s : Tables}
  {result : Except Failure Answer}

theorem Founding.excess_eq {config : Config} {input : CreateTeam} {name : String}
    {now : Instant} {founded : Team} (h : Founding rely config input name now w s founded)
    (team : Int) : s.excess team = w.store.excess team := by
  obtain ⟨between, member, hcreate, hadd⟩ := h.written
  have hleft := Tables.excess_createTeam team hcreate
  have hright := Tables.excess_addMember team hadd
  obtain ⟨-, rfl, -, -⟩ := Tables.addMember_ok hadd
  simp only [MemberDraft.member] at hright
  omega

/-- What an acceptance adds to the members it also takes from the pending
invitations. -/
theorem Acceptance.excess_eq (horderly : rely.Orderly) (hinv : rely.inv w) {token : Secret}
    {user : Int} {email : String} {invitation : Invitation} {member : Member}
    (h : Acceptance rely token user email invitation w s member) (team : Int) :
    s.excess team = w.store.excess team := by
  obtain ⟨-, i, hi, hoffer⟩ := h.presented.stored horderly
  obtain ⟨hid, hteam, -⟩ := Invitation.offer_eq hoffer
  obtain ⟨hmember, -⟩ := h.members_perm
  obtain ⟨found, joined, accepted, -, -, hadd, hsettle⟩ := h.written
  have hkeyed := Tables.addMember_keyed hadd (horderly.keyed hinv)
  have hjoined := Tables.excess_addMember team hadd
  obtain ⟨-, -, -, heq⟩ := Tables.addMember_ok hadd
  have hinvitations : joined.invitations = w.store.invitations := by rw [heq]
  -- one member more, and one accepted invitation more, of the same team
  rw [← hid] at hsettle
  have hsettled := Tables.excess_settle team hkeyed (hinvitations ▸ hi) hsettle
  rw [hmember, ← hteam] at hjoined
  simp only [true_and] at hsettled
  omega

/-- An acceptance uses up the invitation behind the token. -/
theorem Acceptance.consumes (horderly : rely.Orderly) (hinv : rely.inv w) {token : Secret}
    {user : Int} {email : String} {invitation : Invitation} {member : Member}
    (h : Acceptance rely token user email invitation w s member) :
    ∃ i ∈ w.store.invitations, ∃ i' ∈ s.invitations, i.isPending = true ∧
      i.offer = invitation.offer ∧ i'.offer = i.offer ∧ i'.status = .accepted := by
  obtain ⟨-, i, hi, hoffer⟩ := h.presented.stored horderly
  obtain ⟨joined, accepted, heq, hsettle⟩ := h.settlement
  obtain ⟨found, hfound, hpending, rfl, rfl⟩ := Tables.settleInvitation_ok hsettle
  obtain ⟨hmem, hid⟩ := Tables.findInvitation_some hfound
  rw [heq] at hmem
  have hsame : found = i := (horderly.keyed hinv).invitation_eq hmem hi
    (hid.trans (Invitation.offer_eq hoffer).1.symm)
  subst hsame
  refine ⟨found, hi, found.settle .accepted w.clock, ?_, hpending, hoffer, rfl, rfl⟩
  exact List.mem_map.mpr ⟨found, heq ▸ hmem, if_pos hid⟩

/-- Deeds keep the excess of a team, but for removals, which take one off. -/
theorem Call.Deed.excess_eq (horderly : rely.Orderly) (hinv : rely.inv w)
    (h : call.Deed rely w s result) (team : Int) :
    s.excess team + (if (call.removesFrom team && result.isOk) = true then 1 else 0) =
      w.store.excess team := by
  have hk := horderly.keyed hinv
  -- a call that removes nobody keeps the excess
  have hkeeps : ∀ {kept : Bool}, kept = false → s.excess team = w.store.excess team →
      s.excess team + (if (kept && result.isOk) = true then 1 else 0) = w.store.excess team := by
    rintro _ rfl hkept
    rw [hkept]
    exact Int.add_zero _
  have hremoves : ∀ {of_ target requester : Int}, Removal rely of_ target requester w s →
      s.excess team + (if (decide (of_ = team) && true) = true then 1 else 0) =
        w.store.excess team := by
    intro of_ target requester hremoval
    have hexcess := Tables.excess_removeMember team hk hremoval.written
    simpa using hexcess
  cases h with
  | founds h => exact hkeeps rfl (h.excess_eq team)
  | updates h => exact hkeeps rfl (Tables.excess_updateTeam team h.written)
  | dissolves h =>
    obtain ⟨deleted, hdelete, hsettle⟩ := h.written
    have hsettled := Tables.excess_settleAll team hsettle (by decide)
    exact hkeeps rfl (hsettled.trans (Tables.excess_deleteTeam team hdelete))
  | changesRole _ h => exact hkeeps rfl (Tables.excess_setRole team h.written)
  | removes _ h => exact hremoves h
  | leaves _ h => exact hremoves h
  | sends h _ => exact hkeeps rfl (Tables.excess_createInvitation team h.written)
  | accepts h => exact hkeeps rfl (h.excess_eq horderly hinv team)
  | lapses h =>
    obtain ⟨now, lapsed, hsettle⟩ := h.written
    exact hkeeps rfl (Tables.excess_settle_other team hk hsettle (by decide))
  | rejects h =>
    obtain ⟨now, hsettle⟩ := h.written
    exact hkeeps rfl (Tables.excess_settle_other team hk hsettle (by decide))
  | revokes h =>
    obtain ⟨now, hsettle⟩ := h.written
    exact hkeeps rfl (Tables.excess_settle_other team hk hsettle (by decide))
  | sweeps h => exact hkeeps rfl (Tables.excess_settleAll team h.written (by decide))
  | changesRoleDirectly h => exact hkeeps rfl (Tables.excess_setRole team h.written)
  | removesDirectly h => exact hremoves h
  | leavesDirectly h => exact hremoves h

end

/-- A call that came to its result without a deed removed nobody. -/
theorem Call.Quiet.removesFrom {call : Call} {result : Except Failure Answer}
    (h : call.Quiet result) (team : Int) : (call.removesFrom team && result.isOk) = false := by
  rcases h with hreads | ⟨failure, rfl⟩
  · have hnone : call.removal? = none := by
      unfold Call.removal?
      split
      -- a call that removes somebody is no reading call
      case h_5 => rfl
      all_goals cases hreads
    simp [Call.removesFrom, hnone]
  · exact Bool.and_false _

namespace Pool

variable {rely : Rely} {pool pool' : Pool} {event : Event}

/-- The excess of every team is what was removed from it, taken off. -/
def Balanced (pool : Pool) : Prop :=
  ∀ team, pool.world.store.excess team + pool.removals team = 0

/-- A thread in the place of another one changes the removals by these two. -/
theorem removals_set (team : Int) (after : Thread) (w : World Tables) {i : Nat}
    {before : Thread} (hbefore : pool.threads[i]? = some before) :
    (Pool.mk w (pool.threads.set i after)).removals team +
        (if before.removedFrom team = true then 1 else 0) =
      pool.removals team + if after.removedFrom team = true then 1 else 0 :=
  countP_set_add after hbefore

/-- Every event keeps the balance. -/
theorem Balanced.step (horderly : rely.Orderly) (hinv : rely.inv pool.world)
    (h : pool.Balanced) (hcourse : Course rely pool event pool') : pool'.Balanced := by
  intro team
  have hteam := h team
  cases hcourse with
  | begins call hquiet =>
    have hnew : Thread.removedFrom team ⟨call, call.program⟩ = false := by
      rw [Thread.removedFrom]
      cases hout : Thread.result? ⟨call, call.program⟩ with
      | none => exact Bool.and_false _
      | some result => exact (hquiet result hout).removesFrom team
    simpa [removals, hnew] using hteam
  | surroundings _ hteams hmembers hinvitations =>
    rw [Tables.excess_congr team hteams hmembers hinvitations]
    exact hteam
  | misses => exact hteam
  | @idles i before after random hbefore hcall hresult =>
    have hsame : after.removedFrom team = before.removedFrom team := by
      rw [Thread.removedFrom, Thread.removedFrom, hcall]
      rcases hresult with hsame | ⟨hnone, hquiet⟩
      · rw [hsame]
      · rw [hnone]
        cases hout : after.result? with
        | none => rfl
        | some result =>
          rw [Option.any_some, (hquiet result hout).removesFrom team]
          exact (Bool.and_false _).symm
    -- a step that is no deed adds nothing to the removals
    have hset := removals_set team after { pool.world with random } hbefore
    rw [hsame] at hset
    have hremovals := Nat.add_right_cancel hset
    rw [hremovals]
    exact hteam
  | @acts i before after s result random hbefore hcall hnone hout hdeed =>
    have hdone : before.removedFrom team = false := by
      rw [Thread.removedFrom, hnone]
      exact Bool.and_false _
    have hdoes : after.removedFrom team = (before.call.removesFrom team && result.isOk) := by
      rw [Thread.removedFrom, hcall, hout]
      rfl
    have hset := removals_set team after { pool.world with store := s, random } hbefore
    have hexcess := hdeed.excess_eq horderly hinv team
    rw [hdone, hdoes, if_neg Bool.false_ne_true, Nat.add_zero] at hset
    rw [hset]
    by_cases hremoves : (before.call.removesFrom team && result.isOk) = true
    · rw [if_pos hremoves] at hexcess ⊢
      show s.excess team + _ = 0
      push_cast
      omega
    · rw [if_neg hremoves] at hexcess ⊢
      show s.excess team + _ = 0
      push_cast
      omega

/-- Pools stay in balance, whatever happens in them. -/
theorem Balanced.run (hgoverns : rely.Governs) (horderly : rely.Orderly) (hfits : pool.Fits rely)
    (h : pool.Balanced) (events : List Event) : (pool.run events).Balanced := by
  induction events using List.reverseRecOn with
  | nil => exact h
  | append_singleton events event ih =>
    have hpool := (fits_run hgoverns hfits events).1
    rw [run_append_singleton]
    exact ih.step horderly hpool.inv (course_step hgoverns hpool event).1

/-- Pools that start on an empty store are in balance. -/
theorem balanced_run (clock : Instant) (random : RandomSource) (events : List Event) :
    ((start clock random).run events).Balanced :=
  Balanced.run Rely.keyed_governs (Rely.among_orderly _) (start_fits clock random [])
    Tables.empty_excess events

/-- A stored team has as many members as founded it or accepted an invitation to it,
less those who were removed. -/
theorem Balanced.membersOf_eq (h : pool.Balanced) (hk : pool.world.store.Keyed) {team : Team}
    (hteam : team ∈ pool.world.store.teams) :
    pool.world.store.membersOf team.id + pool.removals team.id =
      1 + pool.world.store.admitted team.id := by
  have hone : pool.world.store.teams.filter (fun t => t.id = team.id) = [team] :=
    Tables.filter_eq_singleton (List.Nodup.of_map _ hk.teams) hteam (decide_eq_true rfl)
      fun t ht hid => hk.team_eq ht hteam (of_decide_eq_true hid)
  have hcount : pool.world.store.teams.countP (fun t => t.id = team.id) = 1 := by
    rw [List.countP_eq_length_filter, hone]
    rfl
  have hexcess := h team.id
  rw [Tables.excess, hcount] at hexcess
  omega

/-- Two threads that joined by the same token are the same thread. -/
theorem Accounted.joinedBy_unique {entries : List Entry} (h : pool.Accounted entries)
    (hk : pool.world.store.Keyed) {token : Secret} {i j : Nat} {first second : Thread}
    (hfirst : pool.threads[i]? = some first) (hsecond : pool.threads[j]? = some second)
    (hjoined : first.joinedBy token = true) (hjoined' : second.joinedBy token = true) : i = j := by
  -- an accept that succeeded has moved the invitation behind its token
  have hmade : ∀ {k : Nat} {thread : Thread}, pool.threads[k]? = some thread →
      thread.joinedBy token = true → ∃ inv ∈ pool.world.store.invitations,
        inv.tokenHash = Token.hash token.plain ∧
        Change.moved inv.id .accepted ∈ madeBy k entries := by
    intro k thread hthread hjoins
    have hreports := h.reports k thread hthread
    rw [Thread.joinedBy, Bool.and_eq_true, Option.any_eq_true] at hjoins
    obtain ⟨⟨result, hresult, hok⟩, htoken⟩ := hjoins
    rw [hresult] at hreports
    cases result with
    | error failure => cases hok
    | ok answer =>
      split at htoken
      · rename_i hcall
        rw [hcall] at hreports
        obtain ⟨member, inv, -, hinv, hhash, -, -, -, hchanges⟩ := hreports
        rw [of_decide_eq_true htoken] at hhash
        refine ⟨inv, hinv, hhash, ?_⟩
        rw [hchanges]
        exact List.mem_cons_self
      · cases htoken
  obtain ⟨inv, hinv, hhash, hmoved⟩ := hmade hfirst hjoined
  obtain ⟨inv', hinv', hhash', hmoved'⟩ := hmade hsecond hjoined'
  have hsame := hk.invitation_eq_of_token hinv hinv' (hhash.trans hhash'.symm)
  subst hsame
  exact h.mover_unique hmoved hmoved'

/-- Whoever is a member after an event and was none before was admitted by it. -/
theorem Course.joined (horderly : rely.Orderly) (hinv : rely.inv pool.world)
    (hcourse : Course rely pool event pool') {m : Member}
    (hm : m ∈ pool'.world.store.members)
    (hnew : pool.world.store.isMember m.teamId m.userId = false) :
    pool.world.store.Admits pool'.world.store m := by
  have hkept : pool'.world.store.members = pool.world.store.members → False := by
    intro heq
    rw [Tables.isMember_iff.mpr ⟨m, heq ▸ hm, rfl, rfl⟩] at hnew
    cases hnew
  cases hcourse with
  | begins => exact (hkept rfl).elim
  | surroundings _ _ hmembers => exact (hkept hmembers).elim
  | misses => exact (hkept rfl).elim
  | idles => exact (hkept rfl).elim
  | acts _ _ _ _ _ hdeed =>
    rcases hdeed.member_joined hm hnew with
      ⟨config, input, name, now, team, -, h, hteam, huser⟩ |
      ⟨config, token, user, email, invitation, -, h⟩
    · obtain ⟨hid, howner, hteams⟩ := h.teams_eq
      refine .inl ⟨team, ?_, hteam.symm, howner.trans huser.symm, ?_⟩
      · rw [hteams]
        exact List.mem_append_right _ List.mem_cons_self
      · intro old hold heq
        have hle := (horderly.keyed hinv).teams_le old hold
        omega
    · obtain ⟨i, hi, i', hi', hpending, hoffer, hoffer', hstatus⟩ := h.consumes horderly hinv
      obtain ⟨-, hteam, -, hrole, -⟩ := Invitation.offer_eq hoffer
      obtain ⟨hmteam, -, hmrole, -⟩ := h.members_perm
      exact .inr ⟨i, hi, hpending, hteam.trans hmteam.symm, hrole.trans hmrole.symm,
        i', hi', hoffer', hstatus⟩

/-- At any time a team, active or deleted, has as many members as founded it or
accepted an invitation to it, less those who were removed by a call that
succeeded. No token ever joins two, and whoever joins founds the team or uses up
an invitation to it. -/
theorem admission_conserved (clock : Instant) (random : RandomSource) (events : List Event) :
    let pool := (start clock random).run events
    (∀ team ∈ pool.world.store.teams,
      pool.world.store.membersOf team.id + pool.removals team.id =
        1 + pool.world.store.admitted team.id) ∧
    (∀ (token : Secret) (i j : Nat) (first second : Thread), pool.threads[i]? = some first →
      pool.threads[j]? = some second → first.joinedBy token = true →
      second.joinedBy token = true → i = j) ∧
    ∀ event, ∀ m ∈ (pool.step event).world.store.members,
      pool.world.store.isMember m.teamId m.userId = false →
      pool.world.store.Admits (pool.step event).world.store m := by
  intro pool
  have hfits := start_fits clock random events
  have hk : pool.world.store.Keyed := hfits.inv.1
  have haccounted : pool.Accounted ((start clock random).ledger events) :=
    accounted_start clock random events
  refine ⟨?_, ?_, ?_⟩
  · intro team hteam
    exact (balanced_run clock random events).membersOf_eq hk hteam
  · intro token i j first second hfirst hsecond hjoined hjoined'
    exact haccounted.joinedBy_unique hk hfirst hsecond hjoined hjoined'
  · intro event m hm hnew
    have hcourse := (course_step Rely.keyed_governs hfits event).1
    exact hcourse.joined (Rely.among_orderly _) hfits.inv hm hnew

/-- After the addressee has joined they leave again. -/
def joinAndLeave : List Event :=
  acceptAndRevoke ++ [.begins (.membership (.leave 1 1)), .proceeds 4, .proceeds 4]

theorem admission_conserved_of_join_and_leave :
    (((start .epoch .sequence).run joinAndLeave).world.store.membersOf 1 +
        ((start .epoch .sequence).run joinAndLeave).removals 1 =
      1 + ((start .epoch .sequence).run joinAndLeave).world.store.admitted 1) ∧
    (∀ (j : Nat) (second : Thread),
      ((start .epoch .sequence).run joinAndLeave).threads[j]? = some second →
      second.joinedBy ⟨(RandomSource.sequence.token 32).1⟩ = true → 2 = j) ∧
    ((start .epoch .sequence).run rivals).world.store.Admits
      (((start .epoch .sequence).run rivals).step (.proceeds 2)).world.store
      ⟨1, 1, .member, .epoch, .epoch⟩ := by
  have hteam : ⟨1, 7, "Core", "core", none, .everyone, 5, .active, .epoch, .epoch⟩ ∈
      ((start .epoch .sequence).run joinAndLeave).world.store.teams ∧
      ((start .epoch .sequence).run joinAndLeave).threads[2]?.any
        (·.joinedBy ⟨(RandomSource.sequence.token 32).1⟩) = true := by
    decide +kernel
  have hmember : ⟨1, 1, .member, .epoch, .epoch⟩ ∈
      (((start .epoch .sequence).run rivals).step (.proceeds 2)).world.store.members ∧
      ((start .epoch .sequence).run rivals).world.store.isMember 1 1 = false := by
    decide +kernel
  have hjoined := hteam.2
  rw [Option.any_eq_true] at hjoined
  obtain ⟨first, hfirst, htoken⟩ := hjoined
  have hleft := admission_conserved .epoch .sequence joinAndLeave
  have hrivals := admission_conserved .epoch .sequence rivals
  have hbalance := hleft.1 _ hteam.1
  dsimp only at hbalance
  exact ⟨hbalance, fun j second hsecond hsame =>
    hleft.2.1 _ 2 j first second hfirst hsecond htoken hsame,
    hrivals.2.2 (.proceeds 2) _ hmember.1 hmember.2⟩

end Pool

end Roster
