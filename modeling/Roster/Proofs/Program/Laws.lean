import Roster.Interleaving

/-!
# Laws of work and programs

Work and programs are monads, and work that stands in a program keeps its
structure:

* `Program.ofWork_bind` — the parts of a piece of work are parts of the
  program that it stands in;
* `Program.map_eq` — a changed result is one more part, and `Program.run_map` —
  it is got in the same way;
* `Program.answer_ok`, `Program.answer_error` — how tables answer a call;
* `Program.outcome?_eq_some` — a program with an outcome is a result with log
  lines before it, and `Program.run_of_outcome` — it runs to that outcome and
  leaves the world alone.
-/

namespace Roster

variable {α β : Type}

/-! ## Monad laws -/

namespace Work

theorem bind_done (work : Work α) :
    (work.bind fun a => .done (.ok a)) = work := by
  induction work with
  | done result => cases result <;> rfl
  | call c next ih => exact congrArg (Work.call c) (funext ih)
  | clock next ih => exact congrArg Work.clock (funext ih)

theorem bind_bind {γ : Type} (work : Work α) (f : α → Work β) (g : β → Work γ) :
    (work.bind f).bind g = work.bind fun a => (f a).bind g := by
  induction work with
  | done result => cases result <;> rfl
  | call c next ih => exact congrArg (Work.call c) (funext ih)
  | clock next ih => exact congrArg Work.clock (funext ih)

instance : LawfulMonad Work :=
  LawfulMonad.mk' Work (fun work => bind_done work) (fun _ _ => rfl) bind_bind

end Work

namespace Program

theorem bind_done (program : Program α) :
    (program.bind fun a => .done (.ok a)) = program := by
  induction program with
  | done result => cases result <;> rfl
  | ask request next ih => exact congrArg (Program.ask request) (funext ih)

theorem bind_bind {γ : Type} (program : Program α) (f : α → Program β) (g : β → Program γ) :
    (program.bind f).bind g = program.bind fun a => (f a).bind g := by
  induction program with
  | done result => cases result <;> rfl
  | ask request next ih => exact congrArg (Program.ask request) (funext ih)

instance : LawfulMonad Program :=
  LawfulMonad.mk' Program (fun program => bind_done program) (fun _ _ => rfl) bind_bind

theorem map_eq (f : α → β) (program : Program α) :
    program.map f = program >>= fun a => pure (f a) := rfl

/-- A changed result is got with the same log lines, in the same world. -/
theorem run_map {σ : Type} [Store σ] (f : α → β) (program : Program α) (w : World σ) :
    (program.map f).run w =
      ⟨(program.run w).result.map f, (program.run w).log, (program.run w).world⟩ := by
  rw [map_eq, run_bind]
  cases h : (program.run w).result with
  | ok a => simp [Run.andThen, h, Except.map]
  | error e => simp [Run.andThen, h, Except.map]

/-! ## Work in a program -/

@[simp]
theorem ofWork_pure (a : α) : ofWork (pure a) = pure a := rfl

@[simp]
theorem ofWork_bind (work : Work α) (f : α → Work β) :
    ofWork (work >>= f) = ofWork work >>= fun a => ofWork (f a) := by
  change ofWork (work.bind f) = (ofWork work).bind fun a => ofWork (f a)
  induction work with
  | done result => cases result <;> rfl
  | call c next ih =>
    simp only [Work.bind, ofWork, bind]
    congr 1
    funext reply
    cases reply with
    | ok a => exact ih a
    | error e => rfl
  | clock next ih => exact congrArg (Program.ask .now) (funext ih)

/-- A request with more to do after it is the same request. -/
theorem ask_bind {γ : Type} (request : Request γ) (next : γ → Program α) (f : α → Program β) :
    (ask request next >>= f) = ask request fun reply => next reply >>= f := rfl

/-- One call in a sequence asks for its answer and goes on with it. -/
theorem ofWork_perform_bind (call : StoreCall α) (f : α → Program β) :
    ofWork (Work.perform call) >>= f = .ask (.store call) fun reply => ofExcept reply >>= f := by
  change (ofWork (Work.perform call)).bind f = _
  simp only [Work.perform, ofWork, bind]
  congr 1

/-! ## Answers of tables -/

/-- A call that fails changes nothing. -/
theorem answer_error {call : StoreCall α} {w : World Tables} {e : TeamError}
    (h : w.store.perform call = .error e) : w.answer (.store call) = ⟨.error e, [], w⟩ := by
  simp only [World.answer, World.take, Tables.perform_eq, h]

/-- A call that succeeds leaves its tables. -/
theorem answer_ok {call : StoreCall α} {w : World Tables} {reply : α} {s : Tables}
    (h : w.store.perform call = .ok (reply, s)) :
    w.answer (.store call) = ⟨.ok reply, [], { w with store := s }⟩ := by
  simp only [World.answer, World.take, Tables.perform_eq, h]

/-! ## Outcomes -/

/-- A program with an outcome is a result with log lines before it. -/
theorem outcome?_eq_some {program : Program α} {result : Except Failure α}
    (h : program.outcome? = some result) :
    program = .done result ∨ ∃ line next, program = .ask (.log line) next ∧
      (next ()).outcome? = some result := by
  unfold outcome? at h
  split at h
  · exact .inl (congrArg Program.done (Option.some.inj h))
  · exact .inr ⟨_, _, rfl, h⟩
  · cases h

/-- A changed result is decided together with the result. -/
theorem outcome?_map (f : α → β) (program : Program α) :
    (program.map f).outcome? = program.outcome?.map (Except.map f) := by
  induction program with
  | done result => cases result <;> rfl
  | ask request next ih =>
    cases request with
    | log line => exact ih ()
    | _ => rfl

/-- A program with an outcome runs to it and leaves the world alone. -/
theorem run_of_outcome {σ : Type} [Store σ] {program : Program α} {result : Except Failure α}
    (h : program.outcome? = some result) (w : World σ) :
    (program.run w).result = result ∧ (program.run w).world = w := by
  induction program with
  | done r =>
    exact ⟨Option.some.inj h, rfl⟩
  | ask request next ih =>
    obtain hdone | ⟨line, rest, heq, hrest⟩ := outcome?_eq_some h
    · cases hdone
    · cases heq
      exact ih () hrest

end Program

end Roster
