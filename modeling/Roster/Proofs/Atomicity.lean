import Roster.Proofs.Usage

/-!
# All or nothing

Calls that are made in one unit of work come to what they come to one by one, as long as none of
them fails. The first failure ends the unit, and then the store is as it was before, with the ids
that it gives out next.

* `World.Succeeds`, `World.FailsAt` — what calls come to one by one;
* `UnitOfWork.run_performAll_cons` — a unit makes its first call as it is made directly, and goes
  on from there; `UnitOfWork.run_performAll` — so it makes them all, or ends with the first that
  fails;
* `Scope.run_calls` — the same calls in a scope that is committed or dropped;
* `World.Commits`, `World.RollsBack` — the two ways in which a unit can end, and
  `World.commits_or_rollsBack` that it ends in one of them.
-/

namespace Roster

section

variable {σ : Type} [Store σ]

/-! ## Calls one by one -/

namespace World

/-- Made one by one, the calls succeed with these answers. -/
def Succeeds (w : World σ) (calls : List PlannedCall) (answers : List Answer) : Prop :=
  (w.performAll calls).1 = answers.map .ok

/-- Made one by one, the calls before `failing` succeed, and it fails. -/
structure FailsAt (w : World σ) (calls early : List PlannedCall) (failing : PlannedCall)
    (e : TeamError) : Prop where
  split : ∃ late, calls = early ++ failing :: late
  succeeded : ∃ answers, w.Succeeds early answers
  failing : (failing.perform w.clock (w.performAll early).2.2.store).result = .error e

variable {w : World σ} {call failing : PlannedCall} {calls early : List PlannedCall}
  {answer : Answer} {answers : List Answer} {log : List LogLine} {next : σ} {e : TeamError}

/-- A call that succeeds is made, and the others after it. -/
theorem performAll_cons (hfirst : call.perform w.clock w.store = ⟨.ok answer, log, next⟩)
    (calls : List PlannedCall) :
    w.performAll (call :: calls) =
      (.ok answer :: (performAll { w with store := next } calls).1,
        log ++ (performAll { w with store := next } calls).2.1,
        (performAll { w with store := next } calls).2.2) := by
  simp only [performAll, hfirst]

theorem Succeeds.cons (hfirst : call.perform w.clock w.store = ⟨.ok answer, log, next⟩)
    (h : Succeeds { w with store := next } calls answers) :
    w.Succeeds (call :: calls) (answer :: answers) := by
  rw [Succeeds, performAll_cons hfirst, h]
  rfl

theorem FailsAt.cons (hfirst : call.perform w.clock w.store = ⟨.ok answer, log, next⟩)
    (h : FailsAt { w with store := next } calls early failing e) :
    w.FailsAt (call :: calls) (call :: early) failing e where
  split := by
    obtain ⟨late, rfl⟩ := h.split
    exact ⟨late, rfl⟩
  succeeded := by
    obtain ⟨answers, hanswers⟩ := h.succeeded
    exact ⟨answer :: answers, hanswers.cons hfirst⟩
  failing := by
    rw [performAll_cons hfirst]
    exact h.failing

end World

/-! ## Calls in a unit -/

namespace UnitOfWork

/-- The first call of a unit is made as it is made directly, and the others if it did not fail. -/
theorem run_performAll_cons (call : PlannedCall) (rest : List (Except TeamError AnyCall))
    (time : Instant) (s : σ) :
    (performAll (call time :: rest)).run time s =
      (call.perform time s).andThen fun answer s =>
        ((performAll rest).run time s).andThen fun answers s => ⟨.ok (answer :: answers), [], s⟩ := by
  unfold PlannedCall.perform
  cases call time with
  | error e => rfl
  | ok planned =>
    obtain ⟨kind, storeCall⟩ := planned
    simp only [performAll, Work.run_bind, Work.run_perform]
    obtain ⟨result, log, next⟩ := Store.perform storeCall s
    cases result with
    | error e => rfl
    | ok reply =>
      simp only [Except.map, Outcome.andThen_ok, Work.run_bind]
      rfl

/-- What calls come to in a unit of work is what they come to one by one, up to the first
failure. -/
theorem run_performAll (calls : List PlannedCall) (w : World σ) :
    let outcome := (performAll (calls.map (· w.clock))).run w.clock w.store
    (∃ answers, w.Succeeds calls answers ∧ outcome.result = .ok answers ∧
      outcome.store = (w.performAll calls).2.2.store) ∨
    ∃ early failing e, w.FailsAt calls early failing e ∧ outcome.result = .error e := by
  induction calls generalizing w with
  | nil => exact .inl ⟨[], rfl, rfl, rfl⟩
  | cons call rest ih =>
    simp only [List.map_cons, run_performAll_cons]
    cases hfirst : call.perform w.clock w.store with
    | mk result log next =>
      cases result with
      | error e =>
        have hfails : w.FailsAt (call :: rest) [] call e :=
          ⟨⟨rest, rfl⟩, ⟨[], rfl⟩, congrArg Outcome.result hfirst⟩
        exact .inr ⟨[], call, e, hfails, rfl⟩
      | ok answer =>
        rcases ih { w with store := next } with
          ⟨answers, hanswers, hresult, hstore⟩ | ⟨early, failing, e, hfails, hresult⟩
        · refine .inl ⟨answer :: answers, hanswers.cons hfirst, ?_, ?_⟩
          · simp only [Outcome.andThen, hresult]
          · rw [World.performAll_cons hfirst]
            simp only [Outcome.andThen, hresult, hstore]
        · refine .inr ⟨call :: early, failing, e, hfails.cons hfirst, ?_⟩
          simp only [Outcome.andThen, hresult]

end UnitOfWork

end

/-! ## Calls in a scope -/

namespace Scope

/-- Steps after steps go on where these ended. -/
theorem run_append {σ : Type} [Store σ] (time : Instant) (steps more : List ScopeStep)
    (scope : Scope σ) :
    let first := Scope.run time steps scope
    let second := Scope.run time more first.2.2
    Scope.run time (steps ++ more) scope =
      (first.1 ++ second.1, first.2.1 ++ second.2.1, second.2.2) := by
  induction steps generalizing scope with
  | nil => rfl
  | cons step rest ih =>
    simp only [List.cons_append, Scope.run, ih, List.append_assoc]

/-- The calls of a scope come to what they come to one by one on its store. -/
theorem run_calls (w : World Tables) (calls : List PlannedCall) (committed : Bool) :
    Scope.run w.clock (calls.map .call) ⟨w.store, committed⟩ =
      ((w.performAll calls).1, (w.performAll calls).2.1,
        ⟨(w.performAll calls).2.2.store, committed⟩) := by
  induction calls generalizing w with
  | nil => rfl
  | cons call rest ih =>
    have hrest := ih { w with store := (call.perform w.clock w.store).store }
    simp only [List.map_cons, Scope.run, step_call, World.performAll, hrest]

end Scope

/-! ## The two ends of a unit -/

namespace World

/-- Calls change nothing but the store. -/
theorem performAll_world (w : World Tables) (calls : List PlannedCall) :
    (w.performAll calls).2.2 = { w with store := (w.performAll calls).2.2.store } := by
  induction calls generalizing w with
  | nil => rfl
  | cons call rest ih => exact ih { w with store := (call.perform w.clock w.store).store }

/-- No call of the unit fails: it gives the answers that they give one by one and leaves what they
leave, and so does a scope that is committed after them. -/
structure Commits (w : World Tables) (calls : List PlannedCall) (answers : List Answer)
    (unit : Run Tables (List Answer)) : Prop where
  direct : w.Succeeds calls answers
  result : unit.result = .ok answers
  world : unit.world = (w.performAll calls).2.2
  reply : (w.runScope (calls.map .call ++ [.commit])).reply =
    .each (answers.map .ok ++ [.ok .unit])
  committed : (w.runScope (calls.map .call ++ [.commit])).world = unit.world

/-- A call of the unit fails: the unit fails with what this call comes to after those before it,
and leaves the world as it was, and so does a scope that is dropped after it. -/
structure RollsBack (w : World Tables) (calls early : List PlannedCall) (failing : PlannedCall)
    (e : TeamError) (unit : Run Tables (List Answer)) : Prop where
  direct : w.FailsAt calls early failing e
  result : unit.result = .error (.error e)
  world : unit.world = w
  reply : (w.runScope ((early ++ [failing]).map .call)).reply =
    .each (w.performAll (early ++ [failing])).1
  dropped : (w.runScope ((early ++ [failing]).map .call)).world = w

/-- A unit of any calls on any tables ends in one of the two ways. -/
theorem commits_or_rollsBack (w : World Tables) (calls : List PlannedCall) :
    let unit := (Program.atomically (.batch (calls.map (· w.clock)))).run w
    (∃ answers, w.Commits calls answers unit) ∨
      ∃ early failing e, w.RollsBack calls early failing e unit := by
  intro unit
  have hunit : unit = w.adopt
      ((UnitOfWork.performAll (calls.map (· w.clock))).runAtomically w.clock w.store) :=
    Program.run_atomically w _
  rcases UnitOfWork.run_performAll calls w with
    ⟨answers, hsucceeds, hresult, hstore⟩ | ⟨early, failing, e, hfails, hresult⟩
  · left
    refine ⟨answers, ?_⟩
    have hworld : unit.world = (w.performAll calls).2.2 := by
      rw [hunit, performAll_world]
      simp only [adopt, Work.runAtomically, hresult, hstore]
    have hscope := Scope.run_append w.clock (calls.map .call) [.commit] ⟨w.store, false⟩
    simp only [Scope.run_calls] at hscope
    exact
      { direct := hsucceeds
        result := by
          rw [hunit]
          simp only [adopt, Work.runAtomically, hresult, Failure.ofResult]
        world := hworld
        reply := by
          simp only [runScope, hscope]
          rw [hsucceeds]
          rfl
        committed := by
          rw [hworld, performAll_world]
          simp only [runScope, hscope]
          rfl }
  · right
    refine ⟨early, failing, e, ?_⟩
    exact
      { direct := hfails
        result := by
          rw [hunit]
          simp only [adopt, Work.runAtomically, hresult, Failure.ofResult]
        world := by
          rw [hunit]
          simp only [adopt, Work.runAtomically, hresult]
        reply := by simp only [runScope, Scope.run_calls]
        dropped := by
          simp only [runScope, Scope.run_calls, Bool.false_eq_true, if_false] }

/-- A team that is created in a unit that fails does not use up an id, as it does directly. -/
example :
    let w : World Tables := ⟨.empty, .epoch, .sequence⟩
    let found : PlannedCall := fun now => .ok ⟨.team, .createTeam
      { ownerId := 7
        name := "Core"
        slug := "core"
        description := none
        visibility := .everyone
        memberLimit := 5
        createdAt := now }⟩
    let deleteOther : PlannedCall := fun now => .ok ⟨.nothing, .deleteTeam 9 now⟩
    let calls := [found, deleteOther]
    (w.performAll calls).2.2.store.lastTeamId = 1 ∧
      ((Program.atomically (.batch (calls.map (· w.clock)))).run w).world.store.lastTeamId = 0 := by
  decide

end World

end Roster
