import Roster.Action
import Roster.Store.Tables

/-!
# Interleavings

Any number of calls run on one world at the same time. Each is a program, and
between two of its steps any other call may take a step, so that the answer to
one request is the smallest thing that happens.

* `Call` — what a caller asks for: an action under given settings, or a
  membership rule;
* `Thread` — a call that has begun, with what is left of it; `Thread.result?` is
  what the call came to, once it has returned;
* `Pool` — a world and the threads on it;
* `Event` — a call begins, a thread takes a step, or the surroundings change;
* `Pool.step`, `Pool.run` — one event, and events in order.

A thread that nothing comes between ends as its program does when it is run
alone (`Pool.run_alone`).
-/

namespace Roster

/-- What a caller asks for. -/
inductive Call
  | act (config : Config) (action : Action)
  | membership (call : MembershipCall)

/-- The program of a call. -/
def Call.program : Call → Program Answer
  | .act config action => (action.program config).map action.answer
  | .membership call => call.program.map call.answer

/-- A call that has begun, and what is left of it. -/
structure Thread where
  call : Call
  rest : Program Answer

/-- What a program comes to, once nothing but log lines is left of it. -/
def Program.outcome? {α : Type} : Program α → Option (Except Failure α)
  | .done result => some result
  | .ask (.log _) next => (next ()).outcome?
  | .ask _ _ => none

/-- What a thread came to, once its call has returned. Log lines are no steps of
the call: it returns with the last answer from its surroundings. -/
def Thread.result? (thread : Thread) : Option (Except Failure Answer) :=
  thread.rest.outcome?

/-- One step of a thread; a thread that has ended stays as it is. -/
def Thread.step (thread : Thread) (w : World Tables) : Thread × World Tables :=
  match thread.rest with
  | .done _ => (thread, w)
  | .ask request next =>
    let turn := w.answer request
    ({ thread with rest := next turn.reply }, turn.world)

/-- A world and the threads on it, in the order in which they began. -/
structure Pool where
  world : World Tables
  threads : List Thread

/-- What can happen to a pool. A thread is known by its place. -/
inductive Event
  | begins (call : Call)
  | proceeds (thread : Nat)
  | setClock (time : Instant)
  | insertUser (email name : String)
  | failSettling (fail : Bool)

namespace Pool

/-- No threads on a world with an empty store. -/
def start (clock : Instant) (random : RandomSource) : Pool :=
  ⟨⟨Store.empty, clock, random⟩, []⟩

/-- What a pool is after an event. -/
def step (pool : Pool) : Event → Pool
  | .begins call => { pool with threads := pool.threads ++ [⟨call, call.program⟩] }
  | .proceeds i =>
    match pool.threads[i]? with
    | none => pool
    | some thread =>
      let (thread, world) := thread.step pool.world
      ⟨world, pool.threads.set i thread⟩
  | .setClock clock => { pool with world := { pool.world with clock } }
  | .insertUser email name =>
    { pool with world := { pool.world with store := (pool.world.store.insertUser email name).2 } }
  | .failSettling fail =>
    { pool with
      world := { pool.world with store := { pool.world.store with failSettling := fail } } }

/-- What a pool is after events in order. -/
def run (pool : Pool) (events : List Event) : Pool :=
  events.foldl step pool

@[simp]
theorem run_nil (pool : Pool) : pool.run [] = pool := rfl

@[simp]
theorem run_cons (pool : Pool) (event : Event) (rest : List Event) :
    pool.run (event :: rest) = (pool.step event).run rest := rfl

theorem run_append (pool : Pool) (early late : List Event) :
    pool.run (early ++ late) = (pool.run early).run late := by
  simp [run]

/-- A thread that nothing comes between ends as its program run alone. -/
theorem run_alone (call : Call) (program : Program Answer) (w : World Tables) :
    ∃ steps, (Pool.mk w [⟨call, program⟩]).run (List.replicate steps (.proceeds 0)) =
      ⟨(program.run w).world, [⟨call, .done (program.run w).result⟩]⟩ := by
  induction program generalizing w with
  | done result => exact ⟨0, rfl⟩
  | ask request next ih =>
    obtain ⟨steps, h⟩ := ih (w.answer request).reply (w.answer request).world
    exact ⟨steps + 1, h⟩

end Pool

end Roster
