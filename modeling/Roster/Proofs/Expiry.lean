import Roster.Proofs.Addressee
import Roster.Proofs.WellFormed

/-!
# One expiry in three places

A listing shows which invitations are past their expiry, an acceptance is refused for it, and a
sweep writes it down. All three compare the time for themselves, and they agree.

* `Tables.overdue`, `Tables.expire` — what a listing shows as expired, and the tables with that
  written down; `Tables.expire_expire` — one sweep after another comes to one sweep of both;
* `run_expireStale` — a sweep of a team or of all; `sweepTeams` and `run_sweepTeams` — sweeps of
  teams one after another;
* `accept_expired_iff` — when an acceptance is refused as too late;
* `World.ExpiryAgrees` — the agreement, and `Pool.expiry_agrees` that it holds at any time in
  every world that calls can make.
-/

namespace Roster

/-! ## Sweeps -/

/-- The invitation with its expiry written down. -/
def Invitation.lapsed (i : Invitation) : Invitation :=
  { i with status := .expired }

namespace Tables

/-- An invitation of a team, or of any, that a listing at the time shows as expired. -/
def overdue (scope : Option Int) (now : Instant) (i : Invitation) : Bool :=
  ofTeam scope i && (InvitationView.of i now).isExpired

/-- An invitation of one of the teams that a listing at the time shows as expired. -/
def overdueAmong (teams : List Int) (now : Instant) (i : Invitation) : Bool :=
  i.teamId ∈ teams && (InvitationView.of i now).isExpired

/-- Writes the expiry of the invitations down that satisfy `p`. -/
def expire (s : Tables) (p : Invitation → Bool) : Tables :=
  { s with invitations := s.invitations.map fun i => if p i then i.lapsed else i }

variable {s : Tables} {p q : Invitation → Bool} {scope : Option Int} {now : Instant}

/-- A sweep moves what listings show as expired. -/
theorem settleAll_overdue (s : Tables) (scope : Option Int) (now : Instant) :
    s.settleAll (fun i => ofTeam scope i && i.isExpiredAt now) .expired =
      (s.invitations.countP (overdue scope now), s.expire (overdue scope now)) := by
  have hsame : overdue scope now =
      fun i => i.isPending && (ofTeam scope i && i.isExpiredAt now) := by
    funext i
    exact Bool.and_left_comm _ _ _
  rw [hsame]
  rfl

theorem overdue_pending {i : Invitation} (h : overdue scope now i = true) :
    i.isPending = true := by
  simp only [overdue, InvitationView.of, Bool.and_eq_true] at h
  exact h.2.1

/-- What is written down as expired is not shown as expired any more. -/
@[simp]
theorem isExpired_lapsed (i : Invitation) (now : Instant) :
    (InvitationView.of i.lapsed now).isExpired = false := rfl

@[simp]
theorem overdue_lapsed (i : Invitation) : overdue scope now i.lapsed = false := by
  simp [overdue]

/-- What one sweep has moved, the next one does not find, so the two come to one of both. -/
theorem expire_expire (hq : ∀ i : Invitation, q i.lapsed = false) :
    (s.expire p).expire q = s.expire fun i => p i || q i := by
  simp only [expire, List.map_map]
  congr 2
  funext i
  by_cases hp : p i = true <;> simp [hp, hq]

/-- Together they count what is counted at once. -/
theorem countP_expire (s : Tables) (p : Invitation → Bool)
    (hq : ∀ i : Invitation, q i.lapsed = false) :
    s.invitations.countP p + (s.expire p).invitations.countP q =
      s.invitations.countP fun i => p i || q i := by
  simp only [expire]
  induction s.invitations with
  | nil => rfl
  | cons i rest ih =>
    simp only [List.map_cons, List.countP_cons]
    rw [← ih]
    cases p i
    · simp only [Bool.false_or, Bool.false_eq_true, if_false]
      omega
    · simp only [Bool.true_or, if_true, hq, Bool.false_eq_true, if_false]
      omega

/-- Only the invitations of the tables matter. -/
theorem expire_congr (h : ∀ i ∈ s.invitations, p i = q i) : s.expire p = s.expire q := by
  have hrows : (s.invitations.map fun i => if p i then i.lapsed else i) =
      s.invitations.map fun i => if q i then i.lapsed else i := by
    refine List.map_congr_left ?_
    intro i hi
    rw [h i hi]
  simp only [expire, hrows]

end Tables

/-- A sweep of a team, or of all. -/
theorem run_expireStale (scope : Option Int) (w : World Tables) :
    ((expireStaleInvitations scope).run w).result =
        .ok (w.store.invitations.countP (Tables.overdue scope w.clock)) ∧
      ((expireStaleInvitations scope).run w).world =
        { w with store := w.store.expire (Tables.overdue scope w.clock) } := by
  have hperform : w.store.perform (.expireStale scope w.clock) = _ :=
    congrArg Except.ok (Tables.settleAll_overdue w.store scope w.clock)
  simp only [expireStaleInvitations, Program.run_bind, Program.liftM_work, Program.run_ofWork,
    Work.run_now, Work.run_perform, World.adopt, Failure.ofResult, Run.andThen_ok,
    Tables.perform_eq, hperform]
  exact ⟨rfl, rfl⟩

/-- Sweeps teams one after another; the number moved altogether. -/
def sweepTeams : List Int → Program Nat
  | [] => pure 0
  | team :: rest => do
    let moved ← expireStaleInvitations (some team)
    let more ← sweepTeams rest
    return moved + more

/-- Sweeps of teams one after another come to one sweep of all of these. -/
theorem run_sweepTeams (teams : List Int) (w : World Tables) :
    ((sweepTeams teams).run w).result =
        .ok (w.store.invitations.countP (Tables.overdueAmong teams w.clock)) ∧
      ((sweepTeams teams).run w).world =
        { w with store := w.store.expire (Tables.overdueAmong teams w.clock) } := by
  induction teams generalizing w with
  | nil =>
    have hnone : Tables.overdueAmong [] w.clock = fun _ => false := rfl
    simp [sweepTeams, hnone, Tables.expire]
  | cons team rest ih =>
    obtain ⟨hmoved, hworld⟩ := run_expireStale (some team) w
    obtain ⟨hmore, hlast⟩ :=
      ih { w with store := w.store.expire (Tables.overdue (some team) w.clock) }
    have hboth : (fun i => Tables.overdue (some team) w.clock i ||
        Tables.overdueAmong rest w.clock i) = Tables.overdueAmong (team :: rest) w.clock := by
      funext i
      simp [Tables.overdue, Tables.overdueAmong, Tables.ofTeam, Bool.and_or_distrib_right]
    have hlapsed : ∀ i : Invitation, Tables.overdueAmong rest w.clock i.lapsed = false := by
      intro i
      simp [Tables.overdueAmong]
    rw [Tables.expire_expire hlapsed, hboth] at hlast
    have hsum := Tables.countP_expire w.store (Tables.overdue (some team) w.clock) hlapsed
    rw [hboth] at hsum
    simp only [sweepTeams, Program.run_bind, Run.andThen, hmoved, hworld, hmore, hlast, ← hsum]
    exact ⟨rfl, rfl⟩

/-! ## Acceptances -/

/-- A well-formed invitation is for its address as it is stored. -/
theorem Invitation.WellFormed.isFor_own {i : Invitation} (h : i.WellFormed) :
    i.isFor i.email = true := by
  refine (Invitation.isFor_iff h.address i.email).mpr ⟨h.normalized, ?_⟩
  intro hkelvin
  exact absurd (Email.validate_chars h.address hkelvin) (by decide)

/-- An acceptance by the addressee is refused as too late exactly if the invitation is shown as
expired. -/
theorem accept_expired_iff {w : World Tables} (hk : w.store.Keyed)
    (hroles : w.store.NoOwnersInvited) {i : Invitation} (hi : i ∈ w.store.invitations)
    {token : Secret} (htoken : Token.hash token.plain = i.tokenHash) (user : Int) {email : String}
    (hfor : i.isFor email = true) :
    ((acceptInvitation token user email).run w).result =
        .error (.error (.invitationExpired i.id)) ↔
      (InvitationView.of i w.clock).isExpired = true := by
  have hfound : w.store.findInvitationByToken (Token.hash token.plain) = some i := by
    rw [htoken]
    exact hk.findInvitationByToken_of_mem hi
  have hverdict : i.Verdict w user email ((acceptInvitation token user email).run w) :=
    acceptInvitation_verdict hk hroles hfound
  simp only [Invitation.Verdict, Invitation.obstacles, Obstacle.first_cons, hfor, Bool.not_true,
    Bool.false_eq_true, if_false] at hverdict
  simp only [InvitationView.of]
  cases hpending : i.isPending with
  | false =>
    simp only [hpending, Bool.not_false, if_true] at hverdict
    simp [hverdict.1]
  | true =>
    simp only [hpending, Bool.not_true, Bool.false_eq_true, if_false] at hverdict
    cases hexpired : i.isExpiredAt w.clock with
    | true =>
      simp only [hexpired, if_true] at hverdict
      simp [hverdict.1]
    | false =>
      simp only [hexpired, Bool.false_eq_true, if_false] at hverdict
      cases hfirst : Obstacle.first (i.teamObstacles w.store user) with
      | some failure =>
        have hother : failure ≠ .invitationExpired i.id := by
          rintro rfl
          exact first_teamObstacles_ne_expired hfirst
        rw [hfirst] at hverdict
        simpa [hverdict.1] using hother
      | none =>
        rw [hfirst] at hverdict
        simp [hverdict.1]

/-! ## The agreement -/

/-- At the time of the world, what listings show as expired is what sweeps move and what
acceptances are refused for. -/
structure World.ExpiryAgrees (w : World Tables) : Prop where
  /-- A sweep moves what is shown as expired, of the team or of all, counts it, and changes nothing
  else. -/
  swept : ∀ scope,
    let shown := w.store.invitations.filter (Tables.overdue scope w.clock)
    let run := (expireStaleInvitations scope).run w
    run.result = .ok shown.length ∧
      w.store.moves run.world.store = shown.map (fun i => .moved i.id .expired) ∧
      run.world = { w with store := w.store.expire (Tables.overdue scope w.clock) }
  /-- With its token, the addressee is told that an invitation has expired exactly if it is shown
  as expired. -/
  refused : ∀ i ∈ w.store.invitations, ∀ (token : Secret) (user : Int) (email : String),
    Token.hash token.plain = i.tokenHash → i.isFor email = true →
      (((acceptInvitation token user email).run w).result =
          .error (.error (.invitationExpired i.id)) ↔
        (InvitationView.of i w.clock).isExpired = true)
  /-- Every invitation has a token and an addressee. -/
  addressed : ∀ i ∈ w.store.invitations,
    (∃ token : Secret, Token.hash token.plain = i.tokenHash) ∧ i.isFor i.email = true
  /-- Sweeping every team, in any order, comes to sweeping all at once. -/
  byTeams : ∀ order : List Int, (∀ team ∈ w.store.teams, team.id ∈ order) →
    ((sweepTeams order).run w).result = ((expireStaleInvitations none).run w).result ∧
      ((sweepTeams order).run w).world = ((expireStaleInvitations none).run w).world
  /-- Afterwards nothing is left to be moved. -/
  again : ∀ first second : Option Int, first = none ∨ first = second →
    let after := ((expireStaleInvitations first).run w).world
    ((expireStaleInvitations second).run after).result = .ok 0 ∧
      ((expireStaleInvitations second).run after).world = after

/-- So it is wherever invitations are as calls leave them. -/
theorem World.expiryAgrees {w : World Tables} (hk : w.store.Keyed)
    (hroles : w.store.NoOwnersInvited) (hoffered : w.store.Offered) : w.ExpiryAgrees where
  swept := by
    intro scope
    obtain ⟨hresult, hworld⟩ := run_expireStale scope w
    refine ⟨?_, ?_, hworld⟩
    · rw [hresult, List.countP_eq_length_filter]
    · rw [hworld]
      exact Tables.moves_where hk (fun i => Tables.overdue_pending) (by decide)
  refused := by
    intro i hi token user email htoken hfor
    exact accept_expired_iff hk hroles hi htoken user hfor
  addressed := by
    intro i hi
    obtain ⟨token, htoken⟩ := hoffered.tokens i hi
    exact ⟨⟨⟨token⟩, htoken.symm⟩, (hoffered.offers i hi).isFor_own⟩
  byTeams := by
    intro order hevery
    obtain ⟨hresult, hworld⟩ := run_sweepTeams order w
    obtain ⟨hresult', hworld'⟩ := run_expireStale none w
    -- every invitation is of a team that is swept
    have hsame : ∀ i ∈ w.store.invitations,
        Tables.overdueAmong order w.clock i = Tables.overdue none w.clock i := by
      intro i hi
      obtain ⟨team, hteam, hid⟩ := hoffered.teams i hi
      have hmem := hevery team hteam
      rw [hid] at hmem
      simp [Tables.overdueAmong, Tables.overdue, Tables.ofTeam, hmem]
    constructor
    · rw [hresult, hresult', List.countP_congr fun i hi => by rw [hsame i hi]]
    · rw [hworld, hworld', Tables.expire_congr hsame]
  again := by
    intro first second hscope
    obtain ⟨-, hworld⟩ := run_expireStale first w
    obtain ⟨hresult', hworld'⟩ := run_expireStale second
      { w with store := w.store.expire (Tables.overdue first w.clock) }
    -- the second sweep is about no others than the first
    have hcovered : (fun i => Tables.overdue first w.clock i || Tables.overdue second w.clock i) =
        Tables.overdue first w.clock := by
      funext i
      rcases hscope with rfl | rfl
      · cases hshown : (InvitationView.of i w.clock).isExpired <;>
          simp [Tables.overdue, Tables.ofTeam, hshown]
      · exact Bool.or_self _
    have hlapsed : ∀ i : Invitation, Tables.overdue second w.clock i.lapsed = false :=
      fun _ => Tables.overdue_lapsed _
    have hsum := Tables.countP_expire w.store (Tables.overdue first w.clock) hlapsed
    rw [Tables.expire_expire hlapsed, hcovered] at hworld'
    rw [hcovered] at hsum
    rw [hworld]
    refine ⟨?_, hworld'⟩
    rw [hresult']
    simpa using hsum

/-- At any time, in every world that calls can make, running together or one after another, the
listings, the sweeps and the acceptances agree on what has expired. -/
theorem Pool.expiry_agrees (clock : Instant) (random : RandomSource) (history : List Event)
    (now : Instant) :
    World.ExpiryAgrees { ((start clock random).run history).world with clock := now } := by
  obtain ⟨hk, hroles⟩ := (noOwners_fits clock random history).inv
  exact World.expiryAgrees hk hroles (offered_fits clock random history).inv.2

end Roster
