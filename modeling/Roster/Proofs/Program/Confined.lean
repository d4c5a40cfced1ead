import Roster.Proofs.Program.Laws
import Roster.Proofs.Tables.Part

/-!
# Programs of one team

* `World.part` — a world with the part of one team in its store, and `Run.part` — a run that
  ends in that part of its world;
* `Program.Confined` — in the part of a team a program runs as it does in the whole world, and it
  leaves the parts of other teams alone. One rule for each kind of request opens it; a
  unit of work is confined if its work is.
-/

namespace Roster

variable {α β : Type}

/-- Results that end programs alike are the same. -/
theorem Failure.ofResult_injective :
    Function.Injective (ofResult : Except TeamError α → Except Failure α) := by
  rintro (e | a) (e' | a') h <;> cases h <;> rfl

/-- The world as one team sees it. -/
def World.part (w : World Tables) (team : Int) : World Tables :=
  { w with store := w.store.part team }

/-- A run as one team sees it. -/
def Run.part (run : Run Tables α) (team : Int) : Run Tables α :=
  { run with world := run.world.part team }

/-- Worlds with arranged tables are known by their parts. -/
theorem World.eq_of_part {w w' : World Tables} (h : w.store.Arranged) (h' : w'.store.Arranged)
    (hpart : ∀ team, w.part team = w'.part team) : w = w' := by
  have hstore : w.store = w'.store :=
    h.ext h' fun team => congrArg World.store (hpart team)
  have hrest := hpart 0
  cases w
  cases w'
  simp only [part, mk.injEq] at hrest ⊢
  exact ⟨hstore, hrest.2⟩

namespace Program

/-- In a world a program is confined to a team. -/
structure Confined (team : Int) (program : Program α) (w : World Tables) : Prop where
  part : program.run (w.part team) = (program.run w).part team
  others : ∀ other, other ≠ team → (program.run w).world.part other = w.part other

variable {team : Int} {w w' : World Tables} {f : α → Program β}

/-- A confined program cannot tell worlds apart in which its team is the same. -/
theorem Confined.agree {program : Program α} (h : program.Confined team w)
    (h' : program.Confined team w') (hpart : w.part team = w'.part team) :
    (program.run w).result = (program.run w').result ∧
      (program.run w).log = (program.run w').log ∧
      (program.run w).world.part team = (program.run w').world.part team := by
  have hruns : (program.run w).part team = (program.run w').part team := by
    rw [← h.part, ← h'.part, hpart]
  simpa only [Run.part, Run.mk.injEq] using hruns

/-! ## Rules -/

theorem confined_done (result : Except Failure α) : (done result).Confined team w :=
  ⟨rfl, fun _ _ => rfl⟩

theorem confined_pure (a : α) : (pure a : Program α).Confined team w :=
  confined_done (.ok a)

theorem confined_refuse (e : TeamError) : (refuse e : Program α).Confined team w :=
  confined_done (.error (.error e))

/-- Programs one after another. -/
theorem Confined.bind {program : Program α} (h : program.Confined team w)
    (hf : ∀ a, (program.run w).result = .ok a → (f a).Confined team (program.run w).world) :
    (program >>= f).Confined team w := by
  obtain ⟨hpart, hothers⟩ := h
  cases hresult : (program.run w).result with
  | error e =>
    have hrun : (program.run w).andThen (fun a => (f a).run) =
        ⟨.error e, (program.run w).log, (program.run w).world⟩ := by
      simp only [Run.andThen, hresult]
    refine ⟨?_, ?_⟩
    · rw [run_bind, run_bind, hpart, hrun]
      simp only [Run.andThen, Run.part, hresult]
    · rw [run_bind, hrun]
      exact hothers
  | ok a =>
    obtain ⟨hrest, hrestOthers⟩ := hf a hresult
    have hrun : (program.run w).andThen (fun a => (f a).run) =
        { (f a).run (program.run w).world with
          log := (program.run w).log ++ ((f a).run (program.run w).world).log } := by
      simp only [Run.andThen, hresult]
    refine ⟨?_, ?_⟩
    · rw [run_bind, run_bind, hpart, hrun]
      simp only [Run.andThen, Run.part, hresult]
      rw [hrest]
      rfl
    · intro other hother
      rw [run_bind, hrun]
      exact (hrestOthers other hother).trans (hothers other hother)

/-- A changed result. -/
theorem Confined.map {program : Program α} (h : program.Confined team w) (g : α → β) :
    (program.map g).Confined team w := by
  rw [map_eq]
  exact h.bind fun a _ => confined_pure (g a)

/-- A call whose answer is looked at. -/
theorem confined_ask {call : StoreCall β} {next : Except TeamError β → Program α}
    (hcall : w.store.Confines team call)
    (herror : ∀ e, w.store.perform call = .error e → (next (.error e)).Confined team w)
    (hok : ∀ reply s', w.store.perform call = .ok (reply, s') →
      (next (.ok reply)).Confined team { w with store := s' }) :
    (ask (.store call) next).Confined team w := by
  have hpart := hcall.part
  cases hperform : w.store.perform call with
  | error e =>
    rw [hperform] at hpart
    obtain ⟨hrest, hothers⟩ := herror e hperform
    have hanswer := answer_error hperform
    have hanswerPart : (w.part team).answer (.store call) = ⟨.error e, [], w.part team⟩ :=
      answer_error hpart
    refine ⟨?_, ?_⟩
    · simp only [run, hanswer, hanswerPart, hrest, Run.part]
    · simpa only [run, hanswer] using hothers
  | ok done =>
    obtain ⟨reply, s'⟩ := done
    rw [hperform] at hpart
    obtain ⟨hrest, hothers⟩ := hok reply s' hperform
    have hanswer := answer_ok hperform
    have hanswerPart : (w.part team).answer (.store call) =
        ⟨.ok reply, [], World.part { w with store := s' } team⟩ := answer_ok hpart
    refine ⟨?_, ?_⟩
    · simp only [run, hanswer, hanswerPart, hrest, Run.part]
    · intro other hother
      simp only [run, hanswer]
      rw [hothers other hother]
      simp only [World.part, hcall.others reply s' hperform other hother]

/-- A call that is followed only if it succeeds. -/
theorem confined_perform {call : StoreCall α} (hcall : w.store.Confines team call)
    (h : ∀ reply s', w.store.perform call = .ok (reply, s') →
      (f reply).Confined team { w with store := s' }) :
    (ofWork (Work.perform call) >>= f).Confined team w := by
  rw [ofWork_perform_bind]
  exact confined_ask hcall (fun e _ => confined_refuse e) h

/-- A call that only reads, and finds the same in the part of the team. -/
theorem confined_read {call : StoreCall α} (view : Tables → α)
    (hcall : ∀ s : Tables, s.perform call = .ok (view s, s))
    (hview : view (w.store.part team) = view w.store) (h : (f (view w.store)).Confined team w) :
    (ofWork (Work.perform call) >>= f).Confined team w := by
  have hconfines : w.store.Confines team call := by
    refine .of_ok (view w.store) w.store (hcall w.store) ?_ fun _ _ => rfl
    rw [hcall, hview]
  apply confined_perform hconfines
  intro reply s' hperform
  rw [hcall w.store] at hperform
  cases hperform
  exact h

/-- A reading of the clock. -/
theorem confined_now {f : Instant → Program β} (h : (f w.clock).Confined team w) :
    (ofWork Work.now >>= f).Confined team w := by
  refine Confined.bind ⟨rfl, fun _ _ => rfl⟩ ?_
  intro now hnow
  cases hnow
  exact h

/-- A line of the log. -/
theorem confined_log {line : LogLine} {f : Unit → Program β} (h : (f ()).Confined team w) :
    (log line >>= f).Confined team w :=
  Confined.bind ⟨rfl, fun _ _ => rfl⟩ fun _ _ => h

/-- A check. -/
theorem confined_require {condition : Bool} {e : TeamError} {f : Unit → Program β}
    (h : condition = true → (f ()).Confined team w) :
    (ofWork (Work.require condition e) >>= f).Confined team w := by
  cases condition with
  | false => exact confined_refuse e
  | true => exact h rfl

/-- A value that must be there. -/
theorem confined_found {e : TeamError} {found : Option α}
    (h : ∀ a, found = some a → (f a).Confined team w) :
    (ofWork (Work.found e found) >>= f).Confined team w := by
  cases found with
  | none => exact confined_refuse e
  | some a => exact h a rfl

/-- A unit of work is its work, undone if it fails. -/
theorem confined_atomically {unit : UnitOfWork α} (h : (ofWork unit.work).Confined team w) :
    (atomically unit).Confined team w := by
  obtain ⟨hpart, hothers⟩ := h
  simp only [run_ofWork, World.adopt, Run.part, World.part, Run.mk.injEq, World.mk.injEq,
    and_true] at hpart hothers
  obtain ⟨hresult, hlog, hstore⟩ := hpart
  have hresult := Failure.ofResult_injective hresult
  have hclock : (w.part team).clock = w.clock := rfl
  have hfound : (w.part team).store = w.store.part team := rfl
  cases hdone : (unit.work.run w.clock w.store).result with
  | error e =>
    rw [hdone] at hresult
    refine ⟨?_, ?_⟩
    · simp only [run_atomically, Work.runAtomically, World.adopt, Run.part, hclock, hfound,
        hdone, hresult, hlog]
      rfl
    · intro other _
      simp only [run_atomically, Work.runAtomically, World.adopt, hdone]
  | ok a =>
    rw [hdone] at hresult
    refine ⟨?_, ?_⟩
    · simp only [run_atomically, Work.runAtomically, World.adopt, Run.part, hclock, hfound,
        hdone, hresult, hlog, hstore]
      rfl
    · intro other hother
      simp only [run_atomically, Work.runAtomically, World.adopt, hdone, World.part,
        hothers other hother]

end Program

end Roster
