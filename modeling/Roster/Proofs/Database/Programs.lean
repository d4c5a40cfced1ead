import Roster.Proofs.Database.Mirror
import Roster.Proofs.Program.Laws

/-!
# Programs on mirrored worlds

* `World.mirror` — the world with a database that mirrors its tables;
* `Program.Suits` — every call that the program makes in a world fits the tables
  that it comes upon;
* `Program.run_mirror` — such a program runs in the mirrored world as it does in
  the world itself;
* one rule for each kind of request, by which a program is shown to suit a world.
-/

namespace Roster

/-- The world with the mirror of its tables. -/
def World.mirror (w : World Tables) : World Database :=
  ⟨.of w.store, w.clock, w.random⟩

variable {α β : Type}

/-- The run in the mirrored world. -/
def Run.mirror (run : Run Tables α) : Run Database α :=
  ⟨run.result, run.log, run.world.mirror⟩

/-! ## Work -/

namespace Work

/-- Every call of the work fits the tables that it comes upon. -/
def Suits (time : Instant) : Work α → Tables → Prop
  | .done _, _ => True
  | .call c next, s =>
    c.Fits s ∧ ∀ reply s', s.perform c = .ok (reply, s') → (next reply).Suits time s'
  | .clock next, s => (next time).Suits time s

variable {time : Instant} {s : Tables}

/-- Work that suits the tables does the same on their mirror. -/
theorem run_of {work : Work α} (h : work.Suits time s) :
    work.run time (Database.of s) = (work.run time s).mirror := by
  induction work generalizing s with
  | done result => rfl
  | call c next ih =>
    simp only [run, Database.perform_of h.1]
    cases hperform : s.perform c with
    | error e => simp only [Tables.perform_eq, hperform, Outcome.mirror, Outcome.andThen_error]
    | ok done =>
      simp only [Tables.perform_eq, hperform, Outcome.mirror, Outcome.andThen_ok,
        ih done.1 (h.2 done.1 done.2 hperform)]
  | clock next ih => exact ih time h

/-- So does a unit of work, which is undone alike. -/
theorem runAtomically_of {work : Work α} (h : work.Suits time s) :
    work.runAtomically time (Database.of s) = (work.runAtomically time s).mirror := by
  simp only [runAtomically, run_of h]
  cases hresult : (work.run time s).result with
  | ok a => simp only [Outcome.mirror, hresult]
  | error e => simp only [Outcome.mirror, hresult]

end Work

/-! ## Programs -/

/-- The calls of a request fit the tables. -/
def Request.Fits (w : World Tables) : {β : Type} → Request β → Prop
  | _, .store call => call.Fits w.store
  | _, .atomically unit => unit.work.Suits w.clock w.store
  | _, _ => True

/-- A request that fits is answered alike, and leaves the mirror of the world that it
leaves. -/
theorem World.answer_mirror {w : World Tables} {request : Request β} (h : request.Fits w) :
    w.mirror.answer request =
      ⟨(w.answer request).reply, (w.answer request).log, (w.answer request).world.mirror⟩ := by
  cases request with
  | store call =>
    simp only [answer, take, mirror, Database.perform_of h, Outcome.mirror]
  | atomically unit =>
    simp only [answer, take, mirror, Work.runAtomically_of h, Outcome.mirror]
  | _ => rfl

namespace Program

/-- Every call that the program makes in the world fits the tables that it comes upon. -/
def Suits : Program α → World Tables → Prop
  | .done _, _ => True
  | .ask request next, w => request.Fits w ∧
    (next (w.answer request).reply).Suits (w.answer request).world

variable {w : World Tables}

/-- A program that suits the world does the same in its mirror. -/
theorem run_mirror {program : Program α} (h : program.Suits w) :
    program.run w.mirror = (program.run w).mirror := by
  induction program generalizing w with
  | done result => rfl
  | ask request next ih =>
    simp only [run, World.answer_mirror h.1, ih _ h.2, Run.mirror]

/-! ## Rules -/

theorem suits_bind {program : Program β} {f : β → Program α} (h : program.Suits w)
    (hrest : ∀ b, (program.run w).result = .ok b → (f b).Suits (program.run w).world) :
    (program >>= f).Suits w := by
  change (program.bind f).Suits w
  induction program generalizing w with
  | done result =>
    cases result with
    | ok b => exact hrest b rfl
    | error e => trivial
  | ask request next ih => exact ⟨h.1, ih _ h.2 hrest⟩

/-- Work in a program suits a world if it suits the tables at the time. -/
theorem suits_ofWork {work : Work α} :
    (ofWork work).Suits w ↔ work.Suits w.clock w.store := by
  induction work generalizing w with
  | done result => cases result <;> exact .rfl
  | call c next ih =>
    simp only [ofWork, Suits, Request.Fits, Work.Suits]
    refine and_congr_right fun _ => ?_
    cases hperform : w.store.perform c with
    | error e => simp [answer_error hperform, refuse, Suits]
    | ok done => simp [answer_ok hperform, ih, Prod.ext_iff]
  | clock next ih => exact ⟨fun h => (ih w.clock).mp h.2, fun h => ⟨trivial, (ih w.clock).mpr h⟩⟩

variable {f : β → Program α}

theorem suits_of_bind_pure {program : Program α} (h : (program >>= pure).Suits w) :
    program.Suits w := by
  rwa [bind_pure] at h

/-- A call that fits, with the rest after it. -/
theorem suits_write {call : StoreCall β} (hfits : call.Fits w.store)
    (h : ∀ reply s, w.store.perform call = .ok (reply, s) → (f reply).Suits { w with store := s }) :
    (ofWork (Work.perform call) >>= f).Suits w := by
  rw [ofWork_perform_bind]
  refine ⟨hfits, ?_⟩
  cases hperform : w.store.perform call with
  | error e =>
    rw [answer_error hperform]
    trivial
  | ok done =>
    rw [answer_ok hperform]
    exact h done.1 done.2 hperform

/-- A call that only reads leaves the world alone. -/
theorem suits_read {call : StoreCall β} {reply : β} (hfits : call.Fits w.store)
    (hview : w.store.perform call = w.store.reading reply) (h : (f reply).Suits w) :
    (ofWork (Work.perform call) >>= f).Suits w := by
  apply suits_write hfits
  intro reply' s hperform
  cases hview.symm.trans hperform
  exact h

theorem suits_now {f : Instant → Program α} (h : (f w.clock).Suits w) :
    (ofWork Work.now >>= f).Suits w := ⟨trivial, h⟩

theorem suits_userByEmail {email : String} {f : Option User → Program α}
    (h : (f (w.store.findUserByEmail email)).Suits w) : (userByEmail email >>= f).Suits w :=
  ⟨trivial, h⟩

theorem suits_token {length : Nat} {f : String → Program α}
    (h : ∀ token random, (f token).Suits { w with random }) : (token length >>= f).Suits w :=
  ⟨trivial, h _ _⟩

theorem suits_log {line : LogLine} {f : Unit → Program α} (h : (f ()).Suits w) :
    (log line >>= f).Suits w := ⟨trivial, h⟩

theorem suits_later {now : Instant} {duration : Duration} {f : Instant → Program α}
    (h : ∀ time, (f time).Suits w) : (later now duration >>= f).Suits w := by
  unfold later
  split
  · exact h _
  · trivial

theorem suits_require {condition : Bool} {e : TeamError} {f : Unit → Program α}
    (h : condition = true → (f ()).Suits w) : (ofWork (Work.require condition e) >>= f).Suits w := by
  cases condition with
  | true => exact h rfl
  | false => trivial

theorem suits_found {e : TeamError} {found : Option β}
    (h : ∀ b, found = some b → (f b).Suits w) : (ofWork (Work.found e found) >>= f).Suits w := by
  cases found with
  | none => trivial
  | some b => exact h b rfl

theorem suits_input {input : Except InvalidInput β}
    (h : ∀ b, (f b).Suits w) : (ofWork (Work.ofInput input) >>= f).Suits w := by
  cases input with
  | error reason => trivial
  | ok b => exact h b

/-- A unit of work whose calls fit, with the rest after it. -/
theorem suits_atomically {unit : UnitOfWork β} (hunit : (ofWork unit.work).Suits w)
    (h : ∀ reply w', (f reply).Suits w') : (atomically unit >>= f).Suits w := by
  refine suits_bind ⟨suits_ofWork.mp hunit, ?_⟩ fun reply _ => h reply _
  cases (w.answer (.atomically unit)).reply <;> trivial

end Program

end Roster
