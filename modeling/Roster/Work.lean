import Roster.Store.Basic

/-!
# Work on a store

`Work α` is a piece of work that ends in an `α` or a failure: store calls and
clock readings, each chosen from the answers so far. A failing call ends it.

* `Work.perform`, `Work.now`, `Work.refuse` — the single steps;
* `Work.run` — the work done on one store at one time; `Work.run_bind` and the
  equations beside it say what each step does;
* `Work.runAtomically` — all of it or nothing: a failure gives the store back
  as it was.
-/

namespace Roster

/-- Store calls and clock readings up to a result or a failure. -/
inductive Work (α : Type) : Type 1
  | done (result : Except TeamError α)
  | call {β : Type} (call : StoreCall β) (next : β → Work α)
  | clock (next : Instant → Work α)

namespace Work

variable {α β : Type}

/-- Goes on with the result of a piece of work. -/
def bind : Work α → (α → Work β) → Work β
  | .done (.ok a), f => f a
  | .done (.error e), _ => .done (.error e)
  | .call c next, f => .call c fun reply => (next reply).bind f
  | .clock next, f => .clock fun now => (next now).bind f

instance : Monad Work where
  pure a := .done (.ok a)
  bind := bind

/-- One store call. -/
def perform (call : StoreCall α) : Work α :=
  .call call fun reply => .done (.ok reply)

/-- One reading of the clock. -/
def now : Work Instant :=
  .clock fun now => .done (.ok now)

/-- Ends the work with a failure. -/
def refuse (e : TeamError) : Work α :=
  .done (.error e)

/-- Goes on only if a condition holds. -/
def require (condition : Bool) (e : TeamError) : Work Unit :=
  if condition then pure () else refuse e

/-- The value that was found, or a failure. -/
def found (e : TeamError) : Option α → Work α
  | some a => pure a
  | none => refuse e

/-- A checked input, or the failure that it is. -/
def ofInput : Except InvalidInput α → Work α
  | .ok a => pure a
  | .error reason => refuse (.ofInput reason)

/-! ## Doing the work -/

variable {σ : Type} [Store σ]

/-- Does the work on a store, all at one time. -/
def run (time : Instant) : Work α → σ → Outcome σ α
  | .done result, s => ⟨result, [], s⟩
  | .call c next, s => (Store.perform c s).andThen fun reply => (next reply).run time
  | .clock next, s => (next time).run time s

/-! ## What each step does -/

section Equations

variable (time : Instant) (s : σ)

@[simp]
theorem run_pure (a : α) : (pure a : Work α).run time s = ⟨.ok a, [], s⟩ := rfl

@[simp]
theorem run_refuse (e : TeamError) : (refuse e : Work α).run time s = ⟨.error e, [], s⟩ := rfl

@[simp]
theorem run_now : now.run time s = ⟨.ok time, [], s⟩ := rfl

@[simp]
theorem run_perform (c : StoreCall α) : (perform c).run time s = Store.perform c s := by
  cases h : Store.perform c s with
  | mk result log store => cases result <;> simp [perform, run, Outcome.andThen, h]

/-- Work that goes on with a result does its first part, and the rest only if
that did not fail. -/
theorem run_bind (work : Work α) (f : α → Work β) :
    (work >>= f).run time s = (work.run time s).andThen fun a => (f a).run time := by
  change (work.bind f).run time s = _
  induction work generalizing s with
  | done result => cases result <;> simp [bind, run, Outcome.andThen]
  | call c next ih =>
    cases h : (Store.perform c s).result with
    | error e => simp [bind, run, Outcome.andThen, h]
    | ok reply =>
      cases h' : ((next reply).run time (Store.perform c s).store).result <;>
        simp [bind, run, ih, Outcome.andThen, h, h']
  | clock next ih => simp [bind, run, ih]

end Equations

/-- Does the work as one unit: if it fails, the store is as it was. -/
def runAtomically (time : Instant) (work : Work α) (s : σ) : Outcome σ α :=
  let outcome := work.run time s
  match outcome.result with
  | .ok _ => outcome
  | .error _ => { outcome with store := s }

end Work

end Roster
