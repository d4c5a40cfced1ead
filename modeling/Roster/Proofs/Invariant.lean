import Roster.Proofs.Program.Laws
import Roster.Proofs.Tables.Arranged

/-!
# Invariants of the tables

What every call keeps holds wherever programs run: in a unit of work, in a program run alone, and
between the steps of any number of programs.

* `Tables.Kept` — a property that no call breaks, and `Tables.Kept.program` — no program does;
* `Tables.Invariant` — no change of the surroundings breaks it either, and
  `Tables.Invariant.run` — nothing that happens to a pool does;
* `Tables.Tidy` — tables that are regular and arranged, as all tables are that pools come to
  (`Pool.start_tidy`).
-/

namespace Roster

namespace Tables

/-- What no call can break. -/
structure Kept (P : Tables → Prop) : Prop where
  perform : ∀ {α : Type} {call : StoreCall α} {reply : α} {s s' : Tables},
    s.perform call = .ok (reply, s') → P s → P s'

/-- What no new user and no failure of settling can break, either. -/
structure Invariant (P : Tables → Prop) : Prop extends Kept P where
  insertUser : ∀ (s : Tables) (email name : String), P s → P (s.insertUser email name).2
  failSettling : ∀ (s : Tables) (fail : Bool), P s → P { s with failSettling := fail }

section

variable {P : Tables → Prop} {α : Type}

/-- Work keeps it. -/
theorem Kept.work (hP : Kept P) (work : Work α) (time : Instant) {s : Tables} (h : P s) :
    P (work.run time s).store := by
  induction work generalizing s with
  | done result => exact h
  | call c next ih =>
    simp only [Work.run]
    cases hperform : s.perform c with
    | error e =>
      rw [perform_eq, hperform]
      exact h
    | ok done =>
      rw [perform_eq, hperform]
      exact ih done.1 (hP.perform hperform h)
  | clock next ih => exact ih time h

/-- An answer keeps it; a unit of work that fails leaves the tables as they were. -/
theorem Kept.answer (hP : Kept P) {w : World Tables} (request : Request α) (h : P w.store) :
    P (w.answer request).world.store := by
  cases request with
  | store call =>
    cases hperform : w.store.perform call with
    | error e =>
      rw [Program.answer_error hperform]
      exact h
    | ok done =>
      rw [Program.answer_ok hperform]
      exact hP.perform hperform h
  | atomically unit =>
    simp only [World.answer, World.take, Work.runAtomically]
    split
    · exact hP.work unit.work w.clock h
    · exact h
  | _ => exact h

/-- A program run alone keeps it. -/
theorem Kept.program (hP : Kept P) (program : Program α) {w : World Tables} (h : P w.store) :
    P (program.run w).world.store := by
  induction program generalizing w with
  | done result => exact h
  | ask request next ih => exact ih _ (hP.answer request h)

/-- So does whatever happens to a pool, if the surroundings do. -/
theorem Invariant.step (hP : Invariant P) {pool : Pool} (event : Event) (h : P pool.world.store) :
    P (pool.step event).world.store := by
  cases event with
  | proceeds i =>
    simp only [Pool.step]
    cases pool.threads[i]? with
    | none => exact h
    | some thread =>
      simp only [Thread.step]
      split
      · exact h
      · rename_i request next _
        exact hP.answer request h
  | insertUser email name => exact hP.insertUser _ email name h
  | failSettling fail => exact hP.failSettling _ fail h
  | _ => exact h

/-- It holds after any events. -/
theorem Invariant.run (hP : Invariant P) {pool : Pool} (events : List Event) (h : P pool.world.store) :
    P (pool.run events).world.store := by
  induction events generalizing pool with
  | nil => exact h
  | cons event rest ih => exact ih (hP.step event h)

end

/-- Regular tables with their rows in order. -/
structure Tidy (s : Tables) : Prop where
  regular : s.Regular
  arranged : s.Arranged

theorem tidy_invariant : Invariant Tidy where
  perform := by
    intro α call reply s s' hperform h
    exact ⟨perform_regular hperform h.regular,
      perform_arranged hperform h.regular.keyed h.arranged⟩
  insertUser := by
    intro s email name h
    exact ⟨h.regular.of_eq rfl rfl rfl rfl rfl, h.arranged.1, h.arranged.2, h.arranged.3⟩
  failSettling := by
    intro s fail h
    exact ⟨h.regular.of_eq rfl rfl rfl rfl rfl, h.arranged.1, h.arranged.2, h.arranged.3⟩

end Tables

/-- Whatever happens from the start, the tables are tidy. -/
theorem Pool.start_tidy (clock : Instant) (random : RandomSource) (events : List Event) :
    ((start clock random).run events).world.store.Tidy :=
  Tables.tidy_invariant.run events ⟨Tables.empty_regular, Tables.empty_arranged⟩

end Roster
