import Roster.Proofs.Invariant
import Roster.Proofs.WellFormed
import Roster.Session

/-!
# Sessions of calls

A session in which nothing races with anything, and in which commands either
call the library or change its surroundings.

* `Session.play` — commands one after another, without races;
* `Command.isOrdinary` — the commands that do not reach past the library to the
  store;
* `Session.call?` — the call that a command makes, and `Session.step_call` — the
  command is the run of that call;
* `Session.step_proper` — ordinary commands keep tables well formed, and
  `Session.step_users` — they insert the users that they say they insert.
-/

namespace Roster

/-- Whether a command calls the library or changes its surroundings, and makes no
call on the store of its own. -/
def Command.isOrdinary : Command → Bool
  | .store _ | .scope _ | .atomically _ => false
  | _ => true

/-- The normalized address of the user that a command inserts. -/
def Command.insertedAddress? : Command → Option String
  | .insertUser email _ => some (Email.normalize email)
  | _ => none

/-! ## What no call changes -/

/-- No program inserts users, or decides whether settling fails. -/
theorem Program.run_frame {α : Type} (program : Program α) (w : World Tables) :
    (program.run w).world.store.users = w.store.users ∧
      (program.run w).world.store.failSettling = w.store.failSettling := by
  have hkept : Tables.Kept fun s =>
      s.users = w.store.users ∧ s.failSettling = w.store.failSettling := by
    constructor
    intro β call reply s s' hperform h
    obtain ⟨husers, hsettling⟩ := Tables.perform_frame hperform
    exact ⟨husers.trans h.1, hsettling.trans h.2⟩
  exact hkept.program program ⟨rfl, rfl⟩

/-! ## Commands -/

namespace Session

section

variable {σ : Type} (session : Session σ) (result : Except Failure Answer)

/-- Remembering a token leaves the world alone. -/
@[simp]
theorem remember_world : (session.remember result).world = session.world := by
  unfold remember
  split <;> rfl

end

variable {σ : Type} [Store σ]

/-- Runs commands in order, with nothing in between. -/
def play (commands : List Command) (session : Session σ) : List Report × Session σ :=
  Session.run (commands.map fun command => .command command []) session

theorem play_cons (command : Command) (rest : List Command) (session : Session σ) :
    session.play (command :: rest) =
      ((session.step [] command).1 :: ((session.step [] command).2.play rest).1,
        ((session.step [] command).2.play rest).2) := rfl

/-- The call that a command makes, if it makes one. -/
def call? (session : Session σ) : Command → Option Call
  | .act action => some (.act session.config action)
  | .acceptIssued invitation user email =>
    some (.act session.config (.acceptInvitation (session.tokenOf invitation) user email))
  | .rejectIssued invitation email =>
    some (.act session.config (.rejectInvitation (session.tokenOf invitation) email))
  | .membership call => some (.membership call)
  | _ => none

/-- Takes over the run of a call. -/
def finish (session : Session σ) (run : Run σ Answer) : Report × Session σ :=
  (⟨run.result, run.log, []⟩, { session with world := run.world }.remember run.result)

/-- A command that makes a call is the run of that call. -/
theorem step_call {session : Session σ} {command : Command} {call : Call}
    (h : session.call? command = some call) :
    session.step [] command = session.finish (call.program.run session.world) := by
  cases command <;> cases h <;>
    simp only [step, act, runProgram, Program.runRacing_nil, Call.program, Program.run_map, finish]

/-- Ordinary commands keep tables well formed. -/
theorem step_proper {session : Session Tables} {command : Command}
    (hordinary : command.isOrdinary = true) (h : session.world.store.Proper) :
    (session.step [] command).2.world.store.Proper := by
  cases hcall : session.call? command with
  | some call =>
    rw [step_call hcall]
    simpa only [finish, remember_world] using call.run_proper h
  | none =>
    cases command with
    | insertUser email name => exact h.of_eq rfl rfl rfl rfl rfl
    | advanceClock duration =>
      simp only [step]
      split <;> exact h
    | act | acceptIssued | rejectIssued | membership => cases hcall
    | store | scope | atomically => cases hordinary
    | _ => exact h

/-- A command leaves the users as they were but for the one that it inserts, and does not
decide whether settling fails. -/
theorem step_users (session : Session Tables) {command : Command}
    (hordinary : command.isOrdinary = true) :
    (session.step [] command).2.world.store.users.map (·.email) =
        session.world.store.users.map (·.email) ++ command.insertedAddress?.toList ∧
      (session.step [] command).2.world.store.failSettling = session.world.store.failSettling := by
  cases hcall : session.call? command with
  | some call =>
    have hnone : command.insertedAddress? = none := by
      cases command <;> first | rfl | cases hcall
    obtain ⟨husers, hsettling⟩ := call.program.run_frame session.world
    rw [step_call hcall, hnone]
    simp only [finish, remember_world, husers, hsettling, Option.toList_none, List.append_nil,
      and_self]
  | none =>
    have hsame : session.world.store.users.map (·.email) =
        session.world.store.users.map (·.email) ++ Option.toList none :=
      (List.append_nil _).symm
    cases command with
    | insertUser email name => exact ⟨List.map_append, rfl⟩
    | advanceClock duration =>
      simp only [step]
      split <;> exact ⟨hsame, rfl⟩
    | act | acceptIssued | rejectIssued | membership => cases hcall
    | store | scope | atomically => cases hordinary
    | _ => exact ⟨hsame, rfl⟩

end Session

end Roster
