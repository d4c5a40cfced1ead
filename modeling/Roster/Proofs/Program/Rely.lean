import Roster.Proofs.Program.Laws

/-!
# Programs among others

Between two steps of a program others may change the world. What a program
does all the same is said once here, for any company that it may find itself
in:

* `Rely` — what others keep true, and how they can change a world;
* `Rely.Seen` — a fact that was read from a world that has since moved on;
* `Program.Abides` — the program changes the tables in one step at most, that
  step is one of its deeds, and the deed decides what it comes to;
* `Program.Knowing` — the same from any world in which the given facts were
  seen, with one rule for each kind of request;
* `Program.Abides.run` — a program run alone does one deed or leaves the tables
  as they were.
-/

namespace Roster

/-- What a program may rely on while others run: `inv` holds of every world, and
one world comes after another only as `leads` says. -/
structure Rely where
  inv : World Tables → Prop
  leads : World Tables → World Tables → Prop
  refl : ∀ w, leads w w
  trans : ∀ {u v w}, leads u v → leads v w → leads u w
  draws : ∀ {w} random, inv w → inv { w with random } ∧ leads w { w with random }

/-- A fact was seen in a world that has since become `w`. -/
def Rely.Seen (rely : Rely) (w : World Tables) (fact : World Tables → Prop) : Prop :=
  ∃ v, rely.inv v ∧ rely.leads v w ∧ fact v

section

variable {rely : Rely} {v w : World Tables} {fact other : World Tables → Prop}

/-- What holds now is seen. -/
theorem Rely.Seen.now (hinv : rely.inv w) (h : fact w) : rely.Seen w fact :=
  ⟨w, hinv, rely.refl w, h⟩

/-- What was seen stays seen. -/
theorem Rely.Seen.lead (h : rely.Seen v fact) (hlead : rely.leads v w) : rely.Seen w fact := by
  obtain ⟨u, hinv, hu, hfact⟩ := h
  exact ⟨u, hinv, rely.trans hu hlead, hfact⟩

theorem Rely.Seen.imp (h : rely.Seen w fact) (himp : ∀ v, fact v → other v) :
    rely.Seen w other := by
  obtain ⟨u, hinv, hu, hfact⟩ := h
  exact ⟨u, hinv, hu, himp u hfact⟩

end

/-- A step changes the store or draws from the random source, and never moves
the clock. -/
theorem World.answer_world {β : Type} (request : Request β) (w : World Tables) :
    (w.answer request).world = { w with
      store := (w.answer request).world.store
      random := (w.answer request).world.random } := by
  cases request <;> rfl

/-- A step that leaves the store alone at most draws from the random source. -/
theorem World.answer_of_store_eq {β : Type} {request : Request β} {w : World Tables}
    (h : (w.answer request).world.store = w.store) :
    (w.answer request).world = { w with random := (w.answer request).world.random } := by
  have hworld := World.answer_world request w
  rwa [h] at hworld

namespace Program

variable {α β : Type} (rely : Rely)
  (deed : World Tables → Tables → Except Failure α → Prop)
  (quiet : World Tables → Except Failure α → Prop)

/-- Whatever others do between its steps, the program changes the tables in one
step at most: `deed w s r` says that this step may come upon the world `w`, leave
the tables `s` and decide the result `r`. Without a deed it comes to a `quiet`
result. -/
def Abides : Program α → World Tables → Prop
  | .done result, w => quiet w result
  | .ask request next, w => ∀ w', rely.leads w w' → rely.inv w' →
    ((w'.answer request).world.store = w'.store ∧
      (next (w'.answer request).reply).Abides (w'.answer request).world) ∨
    ∃ result, (ask request next).outcome? = none ∧
      (next (w'.answer request).reply).outcome? = some result ∧
      deed w' (w'.answer request).world.store result

/-- The program abides from every world in which the facts were seen. -/
def Knowing (seen : List (World Tables → Prop)) (program : Program α) : Prop :=
  ∀ w, rely.inv w → (∀ fact ∈ seen, rely.Seen w fact) → program.Abides rely deed quiet w

variable {rely deed quiet}

/-- A program that has its outcome without a deed came to it quietly. -/
theorem Abides.quiet_of_outcome {program : Program α} {w : World Tables} {result : Except Failure α}
    (h : program.Abides rely deed quiet w) (hinv : rely.inv w)
    (hout : program.outcome? = some result) : quiet w result := by
  induction program with
  | done r =>
    have hr : r = result := Option.some.inj hout
    exact hr ▸ h
  | ask request next ih =>
    -- only a log line can come before an outcome, and that is no deed
    obtain hdone | ⟨line, rest, heq, hrest⟩ := outcome?_eq_some hout
    · cases hdone
    · rcases h w (rely.refl w) hinv with ⟨_, hnext⟩ | ⟨_, hnone, _⟩
      · cases heq
        exact ih () hnext hrest
      · rw [hout] at hnone
        cases hnone

/-- A program abides whatever others do before its next step. -/
theorem Abides.lead {program : Program α} {v w : World Tables}
    (h : program.Abides rely deed quiet v) (hlead : rely.leads v w)
    (hout : program.outcome? = none) : program.Abides rely deed quiet w := by
  cases program with
  | done result => cases hout
  | ask request next => exact fun w' hw' hinv => h w' (rely.trans hlead hw') hinv

/-- A program run alone does one deed, or leaves the tables as they were. -/
theorem Abides.run {program : Program α} {w : World Tables}
    (h : program.Abides rely deed quiet w) (hinv : rely.inv w) :
    (program.run w).world.clock = w.clock ∧
    (((program.run w).world.store = w.store ∧
        quiet (program.run w).world (program.run w).result) ∨
      ∃ v, v.store = w.store ∧ v.clock = w.clock ∧ rely.inv v ∧ rely.leads w v ∧
        deed v (program.run w).world.store (program.run w).result) := by
  -- the world changes from step to step, so the induction is for all of them
  induction program generalizing w with
  | done result => exact ⟨rfl, .inl ⟨rfl, h⟩⟩
  | ask request next ih =>
    have hclock : (w.answer request).world.clock = w.clock := by
      cases request <;> rfl
    have hrun : ((ask request next).run w).world =
          ((next (w.answer request).reply).run (w.answer request).world).world ∧
        ((ask request next).run w).result =
          ((next (w.answer request).reply).run (w.answer request).world).result := ⟨rfl, rfl⟩
    rw [hrun.1, hrun.2]
    rcases h w (rely.refl w) hinv with ⟨hstore, hnext⟩ | ⟨result, _, hout, hdeed⟩
    · -- no deed yet: the rest goes on from the same tables
      have hdraw := rely.draws (w.answer request).world.random hinv
      rw [← World.answer_of_store_eq hstore] at hdraw
      obtain ⟨hsame, hquiet | ⟨v, hv, hvc, hvi, hvl, hdeed⟩⟩ := ih _ hnext hdraw.1
      · exact ⟨hsame.trans hclock, .inl ⟨hquiet.1.trans hstore, hquiet.2⟩⟩
      · exact ⟨hsame.trans hclock, .inr ⟨v, hv.trans hstore, hvc.trans hclock, hvi,
          rely.trans hdraw.2 hvl, hdeed⟩⟩
    · -- the deed: what follows it are log lines
      obtain ⟨hresult, hworld⟩ := run_of_outcome hout (w.answer request).world
      rw [hresult, hworld]
      exact ⟨hclock, .inr ⟨w, rfl, rfl, hinv, rely.refl w, hdeed⟩⟩

/-! ## Rules -/

variable {seen : List (World Tables → Prop)} {f : β → Program α}

theorem Knowing.abides {program : Program α} {w : World Tables}
    (h : program.Knowing rely deed quiet []) (hinv : rely.inv w) :
    program.Abides rely deed quiet w :=
  h w hinv fun _ hmem => absurd hmem List.not_mem_nil

/-- More was seen after a step that changed nothing. -/
private theorem seen_cons {w w' : World Tables} {fact : World Tables → Prop}
    (hseen : ∀ p ∈ seen, rely.Seen w p) (hlead : rely.leads w w') (hfact : rely.Seen w' fact) :
    ∀ p ∈ fact :: seen, rely.Seen w' p := by
  intro p hp
  rcases List.mem_cons.mp hp with rfl | hp
  · exact hfact
  · exact (hseen p hp).lead hlead

theorem knowing_pure {a : α}
    (h : ∀ w, rely.inv w → (∀ fact ∈ seen, rely.Seen w fact) → quiet w (.ok a)) :
    (pure a : Program α).Knowing rely deed quiet seen := h

theorem knowing_refuse {e : TeamError}
    (h : ∀ w, rely.inv w → (∀ fact ∈ seen, rely.Seen w fact) → quiet w (.error (.error e))) :
    (refuse e : Program α).Knowing rely deed quiet seen := h

/-- A call that only reads shows what the tables hold, at a time when all that
had been seen before was past. -/
theorem knowing_read_after {call : StoreCall β} {view : Tables → β}
    (hview : ∀ s : Tables, s.perform call = s.reading (view s))
    (h : ∀ reply, (f reply).Knowing rely deed quiet
      ((fun v => view v.store = reply ∧ ∀ fact ∈ seen, rely.Seen v fact) :: seen)) :
    (ofWork (Work.perform call) >>= f).Knowing rely deed quiet seen := by
  rw [ofWork_perform_bind]
  intro w hinv hseen w' hlead hinv'
  have hturn : w'.answer (.store call) = ⟨.ok (view w'.store), [], w'⟩ := answer_ok (hview _)
  have hpast : ∀ fact ∈ seen, rely.Seen w' fact := fun fact hfact => (hseen fact hfact).lead hlead
  rw [hturn]
  exact .inl ⟨rfl, h _ w' hinv' (seen_cons hseen hlead (.now hinv' ⟨rfl, hpast⟩))⟩

/-- A call that only reads shows what the tables hold. -/
theorem knowing_read {call : StoreCall β} {view : Tables → β}
    (hview : ∀ s : Tables, s.perform call = s.reading (view s))
    (h : ∀ reply, (f reply).Knowing rely deed quiet ((fun v => view v.store = reply) :: seen)) :
    (ofWork (Work.perform call) >>= f).Knowing rely deed quiet seen := by
  apply knowing_read_after hview
  intro reply w hinv hseen
  rw [List.forall_mem_cons] at hseen
  obtain ⟨hread, hrest⟩ := hseen
  exact h reply w hinv (List.forall_mem_cons.mpr ⟨hread.imp fun v hv => hv.1, hrest⟩)

theorem knowing_now {f : Instant → Program α}
    (h : ∀ now, (f now).Knowing rely deed quiet ((fun v => v.clock = now) :: seen)) :
    (ofWork Work.now >>= f).Knowing rely deed quiet seen := by
  intro w hinv hseen w' hlead hinv'
  exact .inl ⟨rfl, h _ w' hinv' (seen_cons hseen hlead (.now hinv' rfl))⟩

theorem knowing_userByEmail {email : String} {f : Option User → Program α}
    (h : ∀ user, (f user).Knowing rely deed quiet
      ((fun v => v.store.findUserByEmail email = user) :: seen)) :
    (userByEmail email >>= f).Knowing rely deed quiet seen := by
  intro w hinv hseen w' hlead hinv'
  exact .inl ⟨rfl, h _ w' hinv' (seen_cons hseen hlead (.now hinv' rfl))⟩

theorem knowing_token {length : Nat} {f : String → Program α}
    (h : ∀ text, (f text).Knowing rely deed quiet
      ((fun v => (v.random.token length).1 = text) :: seen)) :
    (token length >>= f).Knowing rely deed quiet seen := by
  intro w hinv hseen w' hlead hinv'
  have hdraw := rely.draws (w'.random.token length).2 hinv'
  -- the text was drawn from the world before this step
  have hdrawn : rely.Seen { w' with random := (w'.random.token length).2 }
      fun v => (v.random.token length).1 = (w'.random.token length).1 :=
    ⟨w', hinv', hdraw.2, rfl⟩
  exact .inl ⟨rfl, h _ _ hdraw.1 (seen_cons hseen (rely.trans hlead hdraw.2) hdrawn)⟩

theorem knowing_log {line : LogLine} {f : Unit → Program α}
    (h : (f ()).Knowing rely deed quiet seen) :
    (log line >>= f).Knowing rely deed quiet seen := by
  intro w hinv hseen w' hlead hinv'
  exact .inl ⟨rfl, h w' hinv' fun fact hfact => (hseen fact hfact).lead hlead⟩

/-- A call that may write: it fails, it leaves the tables alone, or it is the
deed. -/
theorem knowing_call {call : StoreCall β} {next : Except TeamError β → Program α}
    (hfail : ∀ e, (next (.error e)).Knowing rely deed quiet seen)
    (h : ∀ w reply s, rely.inv w → (∀ fact ∈ seen, rely.Seen w fact) →
      w.store.perform call = .ok (reply, s) →
      (s = w.store ∧ (next (.ok reply)).Knowing rely deed quiet seen) ∨
      ∃ result, (next (.ok reply)).outcome? = some result ∧ deed w s result) :
    (Program.ask (.store call) next).Knowing rely deed quiet seen := by
  intro w hinv hseen w' hlead hinv'
  have hseen' : ∀ fact ∈ seen, rely.Seen w' fact := by
    intro fact hfact
    exact (hseen fact hfact).lead hlead
  cases hperform : w'.store.perform call with
  | error e =>
    rw [answer_error hperform]
    exact .inl ⟨rfl, hfail e w' hinv' hseen'⟩
  | ok done =>
    obtain ⟨reply, s⟩ := done
    rw [answer_ok hperform]
    rcases h w' reply s hinv' hseen' hperform with ⟨rfl, hnext⟩ | ⟨result, hout, hdeed⟩
    · exact .inl ⟨rfl, hnext w' hinv' hseen'⟩
    · exact .inr ⟨result, rfl, hout, hdeed⟩

/-- A writing call in a sequence; if it fails, so does the program. -/
theorem knowing_write {call : StoreCall β}
    (hfail : ∀ e, (refuse e : Program α).Knowing rely deed quiet seen)
    (h : ∀ w reply s, rely.inv w → (∀ fact ∈ seen, rely.Seen w fact) →
      w.store.perform call = .ok (reply, s) →
      (s = w.store ∧ (f reply).Knowing rely deed quiet seen) ∨
      ∃ result, (f reply).outcome? = some result ∧ deed w s result) :
    (ofWork (Work.perform call) >>= f).Knowing rely deed quiet seen := by
  rw [ofWork_perform_bind]
  exact knowing_call hfail h

/-- A unit of work fails or is the deed. -/
theorem knowing_atomically {unit : UnitOfWork β}
    (hfail : ∀ e, (refuse e : Program α).Knowing rely deed quiet seen)
    (h : ∀ w reply, rely.inv w → (∀ fact ∈ seen, rely.Seen w fact) →
      (unit.work.run w.clock w.store).result = .ok reply →
      ∃ result, (f reply).outcome? = some result ∧
        deed w (unit.work.run w.clock w.store).store result) :
    (atomically unit >>= f).Knowing rely deed quiet seen := by
  intro w hinv hseen w' hlead hinv'
  have hseen' : ∀ fact ∈ seen, rely.Seen w' fact := by
    intro fact hfact
    exact (hseen fact hfact).lead hlead
  cases hrun : (unit.work.run w'.clock w'.store).result with
  | error e =>
    -- a unit of work that fails is undone
    have hturn : (w'.answer (.atomically unit)).reply = .error e ∧
        (w'.answer (.atomically unit)).world = w' := by
      simp only [World.answer, World.take, Work.runAtomically, hrun, and_self]
    rw [hturn.1, hturn.2]
    exact .inl ⟨rfl, hfail e w' hinv' hseen'⟩
  | ok reply =>
    have hturn : (w'.answer (.atomically unit)).reply = .ok reply ∧
        (w'.answer (.atomically unit)).world.store = (unit.work.run w'.clock w'.store).store := by
      simp only [World.answer, World.take, Work.runAtomically, hrun, and_self]
    obtain ⟨result, hout, hdeed⟩ := h w' reply hinv' hseen' hrun
    rw [hturn.1, hturn.2]
    exact .inr ⟨result, rfl, hout, hdeed⟩

theorem knowing_found {e : TeamError} {found : Option β}
    (hnone : found = none → (refuse e : Program α).Knowing rely deed quiet seen)
    (h : ∀ a, found = some a → (f a).Knowing rely deed quiet seen) :
    (ofWork (Work.found e found) >>= f).Knowing rely deed quiet seen := by
  cases found with
  | none => exact hnone rfl
  | some a => exact h a rfl

theorem knowing_require {condition : Bool} {e : TeamError} {f : Unit → Program α}
    (hfalse : condition = false → (refuse e : Program α).Knowing rely deed quiet seen)
    (h : condition = true → (f ()).Knowing rely deed quiet seen) :
    (ofWork (Work.require condition e) >>= f).Knowing rely deed quiet seen := by
  cases condition with
  | false => exact hfalse rfl
  | true => exact h rfl

theorem knowing_ofInput {input : Except InvalidInput β}
    (herror : ∀ reason, input = .error reason →
      (refuse (.ofInput reason) : Program α).Knowing rely deed quiet seen)
    (h : ∀ a, input = .ok a → (f a).Knowing rely deed quiet seen) :
    (ofWork (Work.ofInput input) >>= f).Knowing rely deed quiet seen := by
  cases input with
  | error reason => exact herror reason rfl
  | ok a => exact h a rfl

theorem knowing_later {now : Instant} {duration : Duration} {f : Instant → Program α}
    (hnone : now.add? duration = none → ∀ w, quiet w (.error .timeOverflow))
    (h : ∀ time, now.add? duration = some time → (f time).Knowing rely deed quiet seen) :
    (later now duration >>= f).Knowing rely deed quiet seen := by
  unfold later
  cases hadd : now.add? duration with
  | none => exact fun w _ _ => hnone hadd w
  | some time => exact h time hadd

/-- A changed result changes what the deed decides. -/
theorem Abides.map {γ : Type} {program : Program α} {w : World Tables} {g : α → γ}
    {deed' : World Tables → Tables → Except Failure γ → Prop}
    {quiet' : World Tables → Except Failure γ → Prop}
    (h : program.Abides rely (fun w s r => deed' w s (r.map g)) (fun w r => quiet' w (r.map g)) w) :
    (program.map g).Abides rely deed' quiet' w := by
  induction program generalizing w with
  | done result => cases result <;> exact h
  | ask request next ih =>
    intro w' hlead hinv
    rcases h w' hlead hinv with ⟨hstore, hnext⟩ | ⟨result, hnone, hout, hdeed⟩
    · exact .inl ⟨hstore, ih _ hnext⟩
    · refine .inr ⟨result.map g, ?_, ?_, hdeed⟩
      · exact (outcome?_map g (ask request next)).trans (by rw [hnone]; rfl)
      · exact (outcome?_map g (next _)).trans (by rw [hout]; rfl)

end Program

end Roster
