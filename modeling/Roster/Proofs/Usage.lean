import Roster.Proofs.Tables.Unique
import Roster.Session

/-!
# A store used without the library

Callers reach a store in memory directly: they make calls, plain or in scopes that
are committed or dropped, in any order and with any arguments.

* `Use`, `Usage` — what a caller does next, and the tables with the scope that is
  open on them;
* `Usage.current`, `Usage.kept`, `Usage.views` — what the next call works on, what
  nothing can undo any more, and both;
* `Scope.step_call` — a call in a scope is a call on its tables, and
  `Usage.runScope_kept` — a whole scope of a session is such a use;
* `Usage.Regular`, `Usage.Regular.after` — the invariant, and that one use keeps it;
* `Usage.invitations_guarded`, `Usage.teams_guarded` — what it comes to for the two
  tables.

A scope holds the lock of its store until it is dropped. What others do meanwhile
waits, so that here it changes nothing.
-/

namespace Roster

/-- What a caller of a store does next. -/
inductive Use
  | call (planned : PlannedCall) (time : Instant)
  | openScope
  | inScope (step : ScopeStep) (time : Instant)
  | dropScope
  | insertUser (email name : String)
  | failSettling (fail : Bool)

/-- A store in memory and the scope that is open on it. While one is, `store` is what
there was when it was opened. -/
structure Usage where
  store : Tables
  scope : Option (Scope Tables)

/-- A scope of a store in memory takes calls as the store does, committed or not. -/
theorem Scope.step_call (time : Instant) (scope : Scope Tables) (planned : PlannedCall) :
    scope.step time (.call planned) =
      ⟨(planned.perform time scope.store).result, (planned.perform time scope.store).log,
        { scope with store := (planned.perform time scope.store).store }⟩ := by
  have husable : scope.isUsable = true := Bool.or_true _
  simp only [Scope.step, PlannedCall.perform]
  cases planned time with
  | error e => rfl
  | ok call => simp only [husable, if_true]

namespace Usage

/-- An empty store without a scope. -/
def start : Usage := ⟨.empty, none⟩

/-- The tables that the next call works on. -/
def current (usage : Usage) : Tables :=
  match usage.scope with
  | none => usage.store
  | some scope => scope.store

/-- The committed tables: what dropping the scope leaves. -/
def kept (usage : Usage) : Tables :=
  match usage.scope with
  | none => usage.store
  | some scope => if scope.committed then scope.store else usage.store

/-- The tables that anybody can come upon: what is committed, and what the next call
works on. -/
def views (usage : Usage) : List Tables := [usage.kept, usage.current]

/-- One use. Whether settling fails is not part of the rows and is not undone. -/
def after (usage : Usage) (use : Use) : Usage :=
  match usage.scope, use with
  | none, .call planned time => ⟨(planned.perform time usage.store).store, none⟩
  | none, .openScope => ⟨usage.store, some ⟨usage.store, false⟩⟩
  | none, .insertUser email name => ⟨(usage.store.insertUser email name).2, none⟩
  | none, .failSettling fail => ⟨{ usage.store with failSettling := fail }, none⟩
  | some scope, .inScope step time => ⟨usage.store, some (scope.step time step).store⟩
  | some _, .dropScope => ⟨usage.kept, none⟩
  | some scope, .failSettling fail =>
    ⟨{ usage.store with failSettling := fail },
      some { scope with store := { scope.store with failSettling := fail } }⟩
  | _, _ => usage

/-- Uses in order. -/
def afterAll (usage : Usage) (uses : List Use) : Usage :=
  uses.foldl after usage

theorem afterAll_cons (usage : Usage) (use : Use) (rest : List Use) :
    usage.afterAll (use :: rest) = (usage.after use).afterAll rest := rfl

/-! ## Scopes of sessions -/

/-- The steps of a scope, one use each, leave what running them leaves. -/
theorem afterAll_inScope (store : Tables) (scope : Scope Tables) (time : Instant)
    (steps : List ScopeStep) :
    (Usage.mk store (some scope)).afterAll (steps.map fun step => .inScope step time) =
      ⟨store, some (scope.run time steps).2.2⟩ := by
  induction steps generalizing scope with
  | nil => rfl
  | cons step rest ih =>
    rw [List.map_cons, afterAll_cons]
    exact ih (scope.step time step).store

/-- A scope of a session opens, takes its steps, and is dropped. -/
theorem runScope_kept (w : World Tables) (steps : List ScopeStep) :
    (w.runScope steps).world.store =
      ((Usage.mk w.store none).afterAll
        (.openScope :: (steps.map fun step => .inScope step w.clock) ++ [.dropScope])).kept := by
  rw [List.cons_append, afterAll_cons, afterAll, List.foldl_append]
  show _ = (Usage.after ((Usage.mk w.store (some ⟨w.store, false⟩)).afterAll _) .dropScope).kept
  rw [afterAll_inScope]
  rfl

/-! ## One use -/

/-- A planned call changes tables as a call does, or not at all. -/
theorem perform_keeps (planned : PlannedCall) (time : Instant) {s : Tables} (h : s.Regular) :
    (planned.perform time s).store.Regular ∧ s.Keeps (planned.perform time s).store := by
  unfold PlannedCall.perform
  cases planned time with
  | error e => exact ⟨h, .refl s⟩
  | ok call =>
    simp only [Tables.perform_eq]
    cases hperform : s.perform call.2 with
    | error e => exact ⟨h, .refl s⟩
    | ok done => exact ⟨Tables.perform_regular hperform h, Tables.perform_keeps hperform h.keyed⟩

/-- A step of a scope works on its tables, and a committed scope stays so. -/
theorem step_keeps (scope : Scope Tables) (step : ScopeStep) (time : Instant)
    (h : scope.store.Regular) :
    (scope.step time step).store.store.Regular ∧
      scope.store.Keeps (scope.step time step).store.store ∧
      (scope.committed = true → (scope.step time step).store.committed = true) := by
  -- a store in memory goes on after the commit
  have husable : scope.isUsable = true := Bool.or_true _
  cases step with
  | commit =>
    have hstep : (scope.step time .commit).store = { scope with committed := true } := by
      simp only [Scope.step, husable, if_true]
    rw [hstep]
    exact ⟨h, .refl _, fun _ => rfl⟩
  | call planned =>
    obtain ⟨hregular, hkeeps⟩ := perform_keeps planned time h
    rw [Scope.step_call]
    exact ⟨hregular, hkeeps, id⟩

/-- The tables of a scope are regular and keep what those below it have. -/
structure Regular (usage : Usage) : Prop where
  store : usage.store.Regular
  current : usage.current.Regular
  ahead : usage.store.Keeps usage.current

theorem start_regular : start.Regular :=
  ⟨Tables.empty_regular, Tables.empty_regular, .refl _⟩

/-- Without a scope there is one table to look at. -/
theorem Regular.plain {s : Tables} (h : s.Regular) : (Usage.mk s none).Regular :=
  ⟨h, h, .refl s⟩

/-- What is committed is what was there before the scope, or what the scope has made. -/
theorem kept_eq (usage : Usage) : usage.kept = usage.store ∨ usage.kept = usage.current := by
  unfold kept current
  cases usage.scope with
  | none => exact .inl rfl
  | some scope =>
    dsimp only
    split
    · exact .inr rfl
    · exact .inl rfl

/-- What anybody can come upon is regular, and keeps what is committed. -/
theorem Regular.of_mem {usage : Usage} (h : usage.Regular) {s : Tables} (hs : s ∈ usage.views) :
    s.Regular ∧ usage.kept.Keeps s := by
  rcases List.mem_pair.mp hs with rfl | rfl
  · refine ⟨?_, .refl _⟩
    obtain heq | heq := usage.kept_eq
    · exact heq ▸ h.store
    · exact heq ▸ h.current
  · refine ⟨h.current, ?_⟩
    obtain heq | heq := usage.kept_eq
    · exact heq ▸ h.ahead
    · exact heq ▸ .refl _

/-- Whether settling fails is not part of the rows. -/
theorem regular_failSettling {s : Tables} (fail : Bool) (h : s.Regular) :
    Tables.Regular { s with failSettling := fail } :=
  h.of_eq rfl rfl rfl rfl rfl

/-- One use keeps the invariant and takes nothing back that was committed. -/
theorem Regular.after {usage : Usage} (h : usage.Regular) (use : Use) :
    (usage.after use).Regular ∧ usage.kept.Keeps (usage.after use).kept := by
  obtain ⟨store, scope⟩ := usage
  obtain ⟨hstore, hcurrent, hahead⟩ := h
  cases scope with
  | none =>
    cases use with
    | call planned time =>
      obtain ⟨hregular, hkeeps⟩ := perform_keeps planned time hstore
      exact ⟨.plain hregular, hkeeps⟩
    | openScope => exact ⟨⟨hstore, hstore, .refl store⟩, .refl store⟩
    | insertUser email name => exact ⟨.plain (hstore.of_eq rfl rfl rfl rfl rfl), .of_eq rfl rfl⟩
    | failSettling fail => exact ⟨.plain (regular_failSettling fail hstore), .of_eq rfl rfl⟩
    | inScope | dropScope => exact ⟨.plain hstore, .refl store⟩
  | some scope =>
    cases use with
    | inScope step time =>
      obtain ⟨hregular, hkeeps, hcommitted⟩ := step_keeps scope step time hcurrent
      have hahead' := hahead.trans hkeeps
      refine ⟨⟨hstore, hregular, hahead'⟩, ?_⟩
      -- a commit takes over all that the scope has made
      show Tables.Keeps (if scope.committed then scope.store else store)
        (if (scope.step time step).store.committed then (scope.step time step).store.store
          else store)
      by_cases hbefore : scope.committed = true
      · rw [if_pos hbefore, if_pos (hcommitted hbefore)]
        exact hkeeps
      · rw [if_neg hbefore]
        split
        · exact hahead'
        · exact .refl store
    | dropScope =>
      have hdropped : (Usage.mk store (some scope)).Regular := ⟨hstore, hcurrent, hahead⟩
      exact ⟨.plain (hdropped.of_mem List.mem_cons_self).1, .refl _⟩
    | failSettling fail =>
      refine ⟨⟨regular_failSettling fail hstore, regular_failSettling fail hcurrent,
        ⟨hahead.teams, hahead.invitations⟩⟩, ?_⟩
      show Tables.Keeps (if scope.committed then scope.store else store)
        (if scope.committed then { scope.store with failSettling := fail }
          else { store with failSettling := fail })
      split <;> exact .of_eq rfl rfl
    | call | openScope | insertUser => exact ⟨⟨hstore, hcurrent, hahead⟩, .refl _⟩

/-- So do any uses in order. -/
theorem Regular.afterAll {usage : Usage} (h : usage.Regular) (uses : List Use) :
    (usage.afterAll uses).Regular ∧ usage.kept.Keeps (usage.afterAll uses).kept := by
  induction uses generalizing usage with
  | nil => exact ⟨h, .refl _⟩
  | cons use rest ih =>
    obtain ⟨hafter, hkeeps⟩ := h.after use
    obtain ⟨hlast, hkeeps'⟩ := ih hafter
    exact ⟨hlast, hkeeps.trans hkeeps'⟩

/-! ## The two tables -/

/-- Whatever callers do from the start, what anybody can come upon is regular. -/
theorem views_regular (uses : List Use) {s : Tables} (hs : s ∈ (start.afterAll uses).views) :
    s.Regular := by
  obtain ⟨hregular, -⟩ := start_regular.afterAll uses
  exact (hregular.of_mem hs).1

/-- Whatever callers do in between, what anybody can come upon later keeps what was
committed. -/
theorem views_keep (early late : List Use) {s : Tables}
    (hs : s ∈ (start.afterAll (early ++ late)).views) : (start.afterAll early).kept.Keeps s := by
  have happend : start.afterAll (early ++ late) = (start.afterAll early).afterAll late :=
    List.foldl_append
  rw [happend] at hs
  obtain ⟨hearly, -⟩ := start_regular.afterAll early
  obtain ⟨hlate, hkeeps⟩ := hearly.afterAll late
  exact hkeeps.trans (hlate.of_mem hs).2

/-- However a store is used, no two invitations share a digest, no two that are pending
are of one team for one address, and those and only those that were accepted have a date
of acceptance. A committed invitation stays, found under its digest: nothing of it
changes but status and date, and these only while it is pending. -/
theorem invitations_guarded (early late : List Use) :
    (∀ s ∈ (start.afterAll early).views,
      (s.invitations.map (·.tokenHash)).Nodup ∧
        (∀ team email, s.pendingFor team email ≤ 1) ∧
        ∀ i ∈ s.invitations, i.acceptedAt.isSome = true ↔ i.status = .accepted) ∧
      ∀ s ∈ (start.afterAll (early ++ late)).views,
        ∀ i ∈ (start.afterAll early).kept.invitations,
          ∃ i' ∈ s.invitations, i'.offer = i.offer ∧ (i.isPending = false → i' = i) ∧
            s.findInvitationByToken i.tokenHash = some i' ∧ i'.id = i.id := by
  constructor
  · intro s hs
    have hr := views_regular early hs
    exact ⟨hr.keyed.tokens, hr.pending, hr.dated⟩
  · intro s hs i hi
    obtain ⟨i', hi', hoffer, hfinal⟩ := (views_keep early late hs).invitations i hi
    obtain ⟨hid, -, -, -, hhash, -⟩ := Invitation.offer_eq hoffer
    have hk := (views_regular (early ++ late) hs).keyed
    exact ⟨i', hi', hoffer, hfinal, hhash ▸ hk.findInvitationByToken_of_mem hi', hid⟩

/-- However a store is used, an owner has one active team at most under a slug, which the
look-up finds, and a new team has an id above all others. A committed team stays, as it is
once it is deleted. -/
theorem teams_guarded (early late : List Use) :
    (∀ s ∈ (start.afterAll early).views,
      (∀ owner slug, s.activeUnder owner slug ≤ 1) ∧
        (∀ t ∈ s.teams, t.isActive = true → s.findTeamBySlug t.ownerId t.slug = some t) ∧
        ∀ draft team s', s.perform (.createTeam draft) = .ok (team, s') →
          ∀ t ∈ s.teams, t.id < team.id) ∧
      ∀ s ∈ (start.afterAll (early ++ late)).views, ∀ t ∈ (start.afterAll early).kept.teams,
        ∃ t' ∈ s.teams, t'.id = t.id ∧ (t.status = .deleted → t' = t) := by
  constructor
  · intro s hs
    have hr := views_regular early hs
    refine ⟨hr.active, ?_, ?_⟩
    · intro t ht hactive
      exact hr.findTeamBySlug_of_mem ht hactive
    · intro draft team s' hcreate
      exact hr.keyed.createTeam_above hcreate
  · intro s hs t ht
    exact (views_keep early late hs).teams t ht

/-- The id of a team whose scope was dropped is given out again. -/
example :
    let draft : TeamDraft := ⟨7, "Core", "core", none, .everyone, 2, .epoch⟩
    let create : PlannedCall := fun _ => .ok ⟨.team, .createTeam draft⟩
    ((start.afterAll [.openScope, .inScope (.call create) .epoch, .dropScope,
      .call create .epoch]).kept.teams.map (·.id)) = [1] := by
  decide

end Usage

end Roster
