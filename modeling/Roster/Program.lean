import Roster.Token.Basic
import Roster.UnitOfWork

/-!
# Programs

An action is a `Program`: a sequence of requests to its surroundings, each
chosen from the answers so far, up to a result or a failure. One request is one
step that nothing else comes between; between two requests other programs may
run.

* `Request` — the requests, each with the type of its answer;
* `Program` — the sequences, with `Program.ofWork` for work whose calls are
  steps of their own and `Program.atomically` for a unit of work in one step;
* `World` — a store, a clock and a source of random bytes;
* `World.answer` — one step, and `Program.run` — a program run alone.

A program run alone does the same as its parts one after another
(`Program.run_bind`), and work that is done step by step does the same as work
done at once (`Program.run_ofWork`).
-/

namespace Roster

/-- What a program may ask for; the index is the type of the answer. -/
inductive Request : Type → Type 1
  | store {α : Type} (call : StoreCall α) : Request (Except TeamError α)
  | userByEmail (email : String) : Request (Option User)
  | now : Request Instant
  | token (length : Nat) : Request String
  | log (line : LogLine) : Request Unit
  | atomically {α : Type} (unit : UnitOfWork α) : Request (Except TeamError α)

/-- How a program can end without a result: by a failure, or because a time
that it computes is out of range. -/
inductive Failure
  | error (e : TeamError)
  | timeOverflow
deriving DecidableEq

/-- A result of an operation, as the end of a program. -/
def Failure.ofResult {α : Type} : Except TeamError α → Except Failure α
  | .ok a => .ok a
  | .error e => .error (.error e)

/-- Requests up to a result or a failure. -/
inductive Program (α : Type) : Type 1
  | done (result : Except Failure α)
  | ask {β : Type} (request : Request β) (next : β → Program α)

namespace Program

variable {α β : Type}

/-- Goes on with the result of a program. -/
def bind : Program α → (α → Program β) → Program β
  | .done (.ok a), f => f a
  | .done (.error e), _ => .done (.error e)
  | .ask request next, f => .ask request fun reply => (next reply).bind f

instance : Monad Program where
  pure a := .done (.ok a)
  bind := bind

/-- Ends the program with a failure. -/
def refuse (e : TeamError) : Program α :=
  .done (.error (.error e))

/-- Goes on with an answer, or ends with its failure. -/
def ofExcept : Except TeamError α → Program α
  | .ok a => pure a
  | .error e => refuse e

/-- Work whose calls and clock readings are steps of their own. -/
def ofWork : Work α → Program α
  | .done result => ofExcept result
  | .call c next => .ask (.store c) fun
    | .ok reply => ofWork (next reply)
    | .error e => refuse e
  | .clock next => .ask .now fun now => ofWork (next now)

instance : MonadLift Work Program := ⟨ofWork⟩

/-- Work that stands in a program is done step by step. -/
@[simp]
theorem liftM_work (work : Work α) : (liftM work : Program α) = ofWork work := rfl

/-- A unit of work, done in one step. -/
def atomically (unit : UnitOfWork α) : Program α :=
  .ask (.atomically unit) ofExcept

/-- Looks a user up by e-mail address. -/
def userByEmail (email : String) : Program (Option User) :=
  .ask (.userByEmail email) pure

/-- Draws a token. -/
def token (length : Nat) : Program String :=
  .ask (.token length) pure

/-- Writes a log line. -/
def log (line : LogLine) : Program Unit :=
  .ask (.log line) pure

/-- The instant a duration later; the program ends if there is none. -/
def later (now : Instant) (duration : Duration) : Program Instant :=
  match now.add? duration with
  | some time => pure time
  | none => .done (.error .timeOverflow)

/-- The program with its result changed. -/
def map (f : α → β) (program : Program α) : Program β :=
  program.bind fun a => .done (.ok (f a))

end Program

/-! ## The surroundings -/

/-- What programs run in: a store, the time, and a source of random bytes. -/
structure World (σ : Type) where
  store : σ
  clock : Instant
  random : RandomSource

/-- One answered request: the answer, the lines logged, and the world after
it. -/
structure Turn (σ α : Type) where
  reply : α
  log : List LogLine
  world : World σ

/-- One program run to its end. -/
structure Run (σ α : Type) where
  result : Except Failure α
  log : List LogLine
  world : World σ

variable {σ α : Type} [Store σ]

/-- Takes over the outcome of an operation on the store. -/
def World.take (w : World σ) (outcome : Outcome σ α) : Turn σ (Except TeamError α) :=
  ⟨outcome.result, outcome.log, { w with store := outcome.store }⟩

/-- Answers one request. -/
def World.answer (w : World σ) : {β : Type} → Request β → Turn σ β
  | _, .store call => w.take (Store.perform call w.store)
  | _, .userByEmail email => ⟨Store.findUserByEmail email w.store, [], w⟩
  | _, .now => ⟨w.clock, [], w⟩
  | _, .token length =>
    let (token, random) := w.random.token length
    ⟨token, [], { w with random }⟩
  | _, .log line => ⟨(), [line], w⟩
  | _, .atomically unit => w.take (unit.work.runAtomically w.clock w.store)

/-- Goes on with the result of a run, in the world that it left; a failure ends
it. -/
def Run.andThen {σ α β : Type} (first : Run σ α) (f : α → World σ → Run σ β) : Run σ β :=
  match first.result with
  | .ok a =>
    let rest := f a first.world
    { rest with log := first.log ++ rest.log }
  | .error e => ⟨.error e, first.log, first.world⟩

section

variable {σ α β : Type} (log : List LogLine) (w : World σ) (f : α → World σ → Run σ β)

@[simp]
theorem Run.andThen_ok (a : α) :
    (Run.mk (.ok a) log w).andThen f = { f a w with log := log ++ (f a w).log } := rfl

@[simp]
theorem Run.andThen_error (e : Failure) :
    (Run.mk (.error e) log w).andThen f = ⟨.error e, log, w⟩ := rfl

end

/-- Takes over the outcome of an operation on the store as a run. -/
def World.adopt (w : World σ) (outcome : Outcome σ α) : Run σ α :=
  ⟨Failure.ofResult outcome.result, outcome.log, { w with store := outcome.store }⟩

namespace Program

/-- Runs a program with nothing in between. -/
def run : Program α → World σ → Run σ α
  | .done result, w => ⟨result, [], w⟩
  | .ask request next, w =>
    let turn := w.answer request
    let rest := (next turn.reply).run turn.world
    { rest with log := turn.log ++ rest.log }

/-! ## What each step does -/

variable (w : World σ)

@[simp]
theorem run_pure (a : α) : (pure a : Program α).run w = ⟨.ok a, [], w⟩ := rfl

@[simp]
theorem run_refuse (e : TeamError) : (refuse e : Program α).run w = ⟨.error (.error e), [], w⟩ := rfl

@[simp]
theorem run_ofExcept (result : Except TeamError α) :
    (ofExcept result).run w = ⟨Failure.ofResult result, [], w⟩ := by
  cases result <;> rfl

@[simp]
theorem run_userByEmail (email : String) :
    (userByEmail email).run w = ⟨.ok (Store.findUserByEmail email w.store), [], w⟩ := rfl

@[simp]
theorem run_token (length : Nat) :
    (token length).run w =
      ⟨.ok (w.random.token length).1, [], { w with random := (w.random.token length).2 }⟩ := rfl

@[simp]
theorem run_log (line : LogLine) : (log line).run w = ⟨.ok (), [line], w⟩ := rfl

@[simp]
theorem run_atomically (unit : UnitOfWork α) :
    (atomically unit).run w = w.adopt (unit.work.runAtomically w.clock w.store) := by
  simp [atomically, run, World.answer, World.take, World.adopt]

/-- A program that goes on with a result runs its first part, and the rest only
if that did not fail. -/
theorem run_bind {β : Type} (program : Program α) (f : α → Program β) :
    (program >>= f).run w = (program.run w).andThen fun a => (f a).run := by
  change (program.bind f).run w = _
  induction program generalizing w with
  | done result => cases result <;> simp [bind, run, Run.andThen]
  | ask request next ih =>
    cases h : ((next (w.answer request).reply).run (w.answer request).world).result <;>
      simp [bind, run, ih, Run.andThen, h]

/-- With nothing in between, work done step by step is the work done at
once. -/
@[simp]
theorem run_ofWork (work : Work α) :
    (ofWork work).run w = w.adopt (work.run w.clock w.store) := by
  induction work generalizing w with
  | done result => cases result <;> rfl
  | call c next ih =>
    cases h : (Store.perform c w.store).result <;>
      simp [ofWork, run, World.answer, World.take, World.adopt, Work.run, Outcome.andThen, refuse,
        Failure.ofResult, h, ih]
  | clock next ih => simp [ofWork, run, World.answer, Work.run, ih]

end Program

end Roster
