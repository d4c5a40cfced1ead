import Mathlib.Data.List.Induction
import Roster.Proofs.Deed.Invitations
import Roster.Proofs.Deed.Lineage

/-!
# Pools by their deeds

What can happen to a pool is said once here, for any number of threads and any
order of events:

* `Rely.Governs` — the company that a rely describes is the one that deeds and
  surroundings make;
* `Pool.Fits` — the world is as promised, and every thread that has not returned
  keeps to the deeds of its call;
* `Pool.Course` — what one event comes to: a thread begins, the surroundings
  change, a thread idles, or a thread does its deed and returns;
* `Pool.course_step` — every event takes its course, and the pool fits again;
* `Rely.among` — the company in which tables are keyed, only evolve, and keep
  one more invariant.
-/

namespace Roster

/-- The thread that an event lets take a step. -/
def Event.thread? : Event → Option Nat
  | .proceeds i => some i
  | _ => none

theorem Event.thread?_eq_some {event : Event} {i : Nat} :
    event.thread? = some i ↔ event = .proceeds i := by
  cases event <;> simp [thread?]

/-- Whatever happens in a pool keeps to the rely. -/
structure Rely.Governs (rely : Rely) : Prop where
  deeds : ∀ {call w s result}, rely.inv w → Call.Deed rely call w s result →
    rely.inv { w with store := s } ∧ rely.leads w { w with store := s }
  clocks : ∀ {w} clock, rely.inv w →
    rely.inv { w with clock } ∧ rely.leads w { w with clock }
  users : ∀ {w} email name, rely.inv w →
    rely.inv { w with store := (w.store.insertUser email name).2 } ∧
    rely.leads w { w with store := (w.store.insertUser email name).2 }
  failures : ∀ {w} fail, rely.inv w →
    rely.inv { w with store := { w.store with failSettling := fail } } ∧
    rely.leads w { w with store := { w.store with failSettling := fail } }

/-- A thread that has not returned keeps to the deeds of its call. -/
def Thread.Fits (rely : Rely) (w : World Tables) (thread : Thread) : Prop :=
  thread.result? = none →
    thread.rest.Abides rely (thread.call.Deed rely) (fun _ => thread.call.Quiet) w

namespace Pool

/-- The world is as promised, and so are the threads. -/
structure Fits (rely : Rely) (pool : Pool) : Prop where
  inv : rely.inv pool.world
  threads : ∀ thread ∈ pool.threads, thread.Fits rely pool.world

/-- What an event comes to. -/
inductive Course (rely : Rely) (pool : Pool) : Event → Pool → Prop
  | begins (call : Call) :
    (∀ result, call.program.outcome? = some result → call.Quiet result) →
    Course rely pool (.begins call)
      { pool with threads := pool.threads ++ [⟨call, call.program⟩] }
  | surroundings {event : Event} {world : World Tables} : event.thread? = none →
    world.store.teams = pool.world.store.teams →
    world.store.members = pool.world.store.members →
    world.store.invitations = pool.world.store.invitations →
    Course rely pool event { pool with world }
  | misses {i : Nat} : pool.threads[i]? = none → Course rely pool (.proceeds i) pool
  | idles {i : Nat} {thread thread' : Thread} (random : RandomSource) :
    pool.threads[i]? = some thread → thread'.call = thread.call →
    (thread'.result? = thread.result? ∨ thread.result? = none ∧
      ∀ result, thread'.result? = some result → thread.call.Quiet result) →
    Course rely pool (.proceeds i)
      ⟨{ pool.world with random }, pool.threads.set i thread'⟩
  | acts {i : Nat} {thread thread' : Thread} {s : Tables} {result : Except Failure Answer}
    (random : RandomSource) :
    pool.threads[i]? = some thread → thread'.call = thread.call → thread.result? = none →
    thread'.result? = some result → thread.call.Deed rely pool.world s result →
    Course rely pool (.proceeds i)
      ⟨{ pool.world with store := s, random }, pool.threads.set i thread'⟩

variable {rely : Rely} {pool : Pool}

/-- Before anything has begun, every pool fits. -/
theorem fits_nil {w : World Tables} (hinv : rely.inv w) : Fits rely ⟨w, []⟩ :=
  ⟨hinv, fun _ hthread => absurd hthread List.not_mem_nil⟩

/-- A thread after one of them was replaced is the new one or an old one. -/
theorem getElem?_set_cases {threads : List Thread} {i j : Nat} {after thread : Thread}
    (h : (threads.set i after)[j]? = some thread) :
    i = j ∧ after = thread ∨ i ≠ j ∧ threads[j]? = some thread := by
  rw [List.getElem?_set] at h
  by_cases hij : i = j
  · rw [if_pos hij] at h
    obtain ⟨-, heq⟩ := Option.ite_none_right_eq_some.mp h
    exact .inl ⟨hij, Option.some.inj heq⟩
  · rw [if_neg hij] at h
    exact .inr ⟨hij, h⟩

/-- An event leaves the rows alone, or it is the deed of a thread that returns with
it. -/
theorem Course.rows_or_deed {pool' : Pool} {event : Event}
    (hcourse : Course rely pool event pool') :
    (pool'.world.store.teams = pool.world.store.teams ∧
      pool'.world.store.members = pool.world.store.members ∧
      pool'.world.store.invitations = pool.world.store.invitations) ∨
    ∃ i before after result, event = .proceeds i ∧ pool.threads[i]? = some before ∧
      before.result? = none ∧ pool'.threads[i]? = some after ∧ after.result? = some result ∧
      before.call.Deed rely pool.world pool'.world.store result := by
  cases hcourse with
  | begins => exact .inl ⟨rfl, rfl, rfl⟩
  | surroundings _ hteams hmembers hinvitations => exact .inl ⟨hteams, hmembers, hinvitations⟩
  | misses => exact .inl ⟨rfl, rfl, rfl⟩
  | idles => exact .inl ⟨rfl, rfl, rfl⟩
  | acts random hthread _ hnone hout hdeed =>
    obtain ⟨hlt, -⟩ := List.getElem?_eq_some_iff.mp hthread
    exact .inr ⟨_, _, _, _, rfl, hthread, hnone, List.getElem?_set_self hlt, hout, hdeed⟩

/-- A thread that returns by a step came to its result quietly, or the step is the
deed of its call. -/
theorem Course.returned {pool' : Pool} {i : Nat} {before after : Thread}
    {result : Except Failure Answer} (hcourse : Course rely pool (.proceeds i) pool')
    (hbefore : pool.threads[i]? = some before) (hnone : before.result? = none)
    (hafter : pool'.threads[i]? = some after) (hresult : after.result? = some result) :
    after.call = before.call ∧
      (pool'.world.store = pool.world.store ∧ before.call.Quiet result ∨
        before.call.Deed rely pool.world pool'.world.store result) := by
  cases hcourse with
  | surroundings hnot => cases hnot
  | misses hmisses =>
    rw [hbefore] at hmisses
    cases hmisses
  | idles random hthread hcall hidle =>
    obtain ⟨-, rfl⟩ | ⟨hne, -⟩ := getElem?_set_cases hafter
    · rw [hthread] at hbefore
      cases hbefore
      rcases hidle with hsame | ⟨-, hquiet⟩
      · rw [hresult, hnone] at hsame
        cases hsame
      · exact ⟨hcall, .inl ⟨rfl, hquiet result hresult⟩⟩
    · exact absurd rfl hne
  | acts random hthread hcall _ hout hdeed =>
    obtain ⟨-, rfl⟩ | ⟨hne, -⟩ := getElem?_set_cases hafter
    · rw [hthread] at hbefore
      cases hbefore
      rw [hresult] at hout
      cases hout
      exact ⟨hcall, .inr hdeed⟩
    · exact absurd rfl hne

/-- A new world that the rely leads to suits the threads that were there. -/
theorem Fits.lead (hfits : pool.Fits rely) {w : World Tables} (hlead : rely.leads pool.world w) :
    ∀ thread ∈ pool.threads, thread.Fits rely w := by
  intro thread hthread hnone
  exact (hfits.threads thread hthread hnone).lead hlead hnone

/-- A change of one thread and of the world suits every thread, if it suits that
one. -/
theorem Fits.set (hfits : pool.Fits rely) {w : World Tables} (hinv : rely.inv w)
    (hlead : rely.leads pool.world w) (i : Nat) {thread' : Thread} (hthread' : thread'.Fits rely w) :
    Fits rely ⟨w, pool.threads.set i thread'⟩ := by
  refine ⟨hinv, ?_⟩
  intro thread hthread
  rcases List.mem_or_eq_of_mem_set hthread with hold | rfl
  · exact hfits.lead hlead thread hold
  · exact hthread'

end Pool

/-! ## Steps of one thread -/

namespace Thread

variable {rely : Rely} {thread : Thread} {w : World Tables}

/-- A step of a thread that has returned writes a log line at most. -/
theorem step_returned {result : Except Failure Answer} (h : thread.result? = some result) :
    ∃ thread', thread.step w = (thread', w) ∧ thread'.call = thread.call ∧
      thread'.result? = some result := by
  obtain ⟨call, rest⟩ := thread
  obtain hdone | ⟨line, next, heq, hnext⟩ := Program.outcome?_eq_some h
  · subst hdone
    exact ⟨_, rfl, rfl, rfl⟩
  · subst heq
    exact ⟨_, rfl, rfl, hnext⟩

/-- A step of a thread that has not returned is idle, or it is the deed of its
call and the thread returns with it. -/
theorem step_pending (hinv : rely.inv w) (hfits : thread.Fits rely w)
    (hnone : thread.result? = none) :
    (∃ random thread', thread.step w = (thread', { w with random }) ∧
      thread'.call = thread.call ∧ thread'.Fits rely { w with random } ∧
      ∀ result, thread'.result? = some result → thread.call.Quiet result) ∨
    ∃ random s result thread', thread.step w = (thread', { w with store := s, random }) ∧
      thread'.call = thread.call ∧ thread'.result? = some result ∧
      thread.call.Deed rely w s result := by
  have habides := hfits hnone
  obtain ⟨call, rest⟩ := thread
  -- the thread keeps to its deeds from the world that its step comes upon
  cases rest with
  | done result => cases hnone
  | ask request next =>
    have hworld := World.answer_world request w
    rcases habides w (rely.refl w) hinv with ⟨hstore, hnext⟩ | ⟨result, _, hout, hdeed⟩
    · have hdraw := rely.draws (w.answer request).world.random hinv
      rw [World.answer_of_store_eq hstore] at hnext
      refine .inl ⟨(w.answer request).world.random, ⟨call, next (w.answer request).reply⟩, ?_,
        rfl, fun _ => hnext, fun result hout => hnext.quiet_of_outcome hdraw.1 hout⟩
      exact congrArg (Prod.mk _) (World.answer_of_store_eq hstore)
    · refine .inr ⟨(w.answer request).world.random, _, result,
        ⟨call, next (w.answer request).reply⟩, ?_, rfl, hout, hdeed⟩
      exact congrArg (Prod.mk _) hworld

end Thread

/-! ## Steps of a pool -/

namespace Pool

variable {rely : Rely} {pool : Pool}

theorem step_proceeds {i : Nat} {thread : Thread} (hthread : pool.threads[i]? = some thread) :
    pool.step (.proceeds i) =
      ⟨(thread.step pool.world).2, pool.threads.set i (thread.step pool.world).1⟩ := by
  simp only [step, hthread]

/-- A step of a thread that keeps to its deeds takes its course, and the thread
goes on keeping to them. -/
theorem course_of_fits {i : Nat} {thread : Thread} (hinv : rely.inv pool.world)
    (hthread : pool.threads[i]? = some thread) (hfits : thread.Fits rely pool.world) :
    Course rely pool (.proceeds i) (pool.step (.proceeds i)) ∧
      (thread.step pool.world).1.Fits rely (thread.step pool.world).2 := by
  rw [step_proceeds hthread]
  -- a thread that has returned only has log lines left
  cases hresult : thread.result? with
  | some result =>
    obtain ⟨thread', heq, hcall, hsame⟩ := Thread.step_returned hresult (w := pool.world)
    rw [heq]
    refine ⟨.idles pool.world.random hthread hcall (.inl (hsame.trans hresult.symm)), ?_⟩
    intro hnone
    rw [hsame] at hnone
    cases hnone
  | none =>
    rcases Thread.step_pending hinv hfits hresult with
      ⟨random, thread', heq, hcall, hfits', hquiet⟩ |
      ⟨random, s, result, thread', heq, hcall, hout, hdeed⟩
    · rw [heq]
      exact ⟨.idles random hthread hcall (.inr ⟨hresult, hquiet⟩), hfits'⟩
    · rw [heq]
      refine ⟨.acts random hthread hcall hresult hout hdeed, ?_⟩
      intro hnone
      rw [hout] at hnone
      cases hnone

/-- A step of a thread takes its course. -/
theorem course_proceeds (hgoverns : rely.Governs) (hfits : pool.Fits rely) {i : Nat}
    {thread : Thread} (hthread : pool.threads[i]? = some thread) :
    Course rely pool (.proceeds i) (pool.step (.proceeds i)) ∧
      Fits rely (pool.step (.proceeds i)) ∧
      rely.leads pool.world (pool.step (.proceeds i)).world := by
  obtain ⟨hcourse, hfits'⟩ := course_of_fits hfits.inv hthread
    (hfits.threads thread (List.mem_of_getElem? hthread))
  have hworld : rely.inv (pool.step (.proceeds i)).world ∧
      rely.leads pool.world (pool.step (.proceeds i)).world := by
    generalize pool.step (.proceeds i) = pool' at hcourse ⊢
    cases hcourse with
    | surroundings hnone => cases hnone
    | misses => exact ⟨hfits.inv, rely.refl _⟩
    | idles random => exact rely.draws random hfits.inv
    | acts random _ _ _ _ hdeed =>
      obtain ⟨hinv, hlead⟩ := hgoverns.deeds hfits.inv hdeed
      have hdraw := rely.draws random hinv
      exact ⟨hdraw.1, rely.trans hlead hdraw.2⟩
  refine ⟨hcourse, ?_, hworld.2⟩
  rw [step_proceeds hthread] at hworld ⊢
  exact hfits.set hworld.1 hworld.2 i hfits'

/-- Every event takes its course, the pool fits again, and the world only
changed as the rely says. -/
theorem course_step (hgoverns : rely.Governs) (hfits : pool.Fits rely) (event : Event) :
    Course rely pool event (pool.step event) ∧ Fits rely (pool.step event) ∧
      rely.leads pool.world (pool.step event).world := by
  cases event with
  | begins call =>
    have habides := call.abides hfits.inv
    refine ⟨.begins call ?_, ⟨hfits.inv, ?_⟩, rely.refl _⟩
    · intro result hout
      exact habides.quiet_of_outcome hfits.inv hout
    · intro thread hthread
      rcases List.mem_append.mp hthread with hold | hnew
      · exact hfits.threads thread hold
      · rw [List.mem_singleton.mp hnew]
        exact fun _ => habides
  | proceeds i =>
    cases hthread : pool.threads[i]? with
    | none =>
      have hstep : pool.step (.proceeds i) = pool := by simp only [step, hthread]
      rw [hstep]
      exact ⟨.misses hthread, hfits, rely.refl _⟩
    | some thread => exact course_proceeds hgoverns hfits hthread
  | setClock clock =>
    obtain ⟨hinv, hlead⟩ := hgoverns.clocks clock hfits.inv
    exact ⟨.surroundings rfl rfl rfl rfl, ⟨hinv, hfits.lead hlead⟩, hlead⟩
  | insertUser email name =>
    obtain ⟨hinv, hlead⟩ := hgoverns.users email name hfits.inv
    exact ⟨.surroundings rfl rfl rfl rfl, ⟨hinv, hfits.lead hlead⟩, hlead⟩
  | failSettling fail =>
    obtain ⟨hinv, hlead⟩ := hgoverns.failures fail hfits.inv
    exact ⟨.surroundings rfl rfl rfl rfl, ⟨hinv, hfits.lead hlead⟩, hlead⟩

/-! ## Runs -/

@[simp]
theorem run_append_singleton (events : List Event) (event : Event) :
    pool.run (events ++ [event]) = (pool.run events).step event := by
  simp [run]

/-- A pool fits after any events, and its world is one that the rely leads
to. -/
theorem fits_run (hgoverns : rely.Governs) (hfits : pool.Fits rely) (events : List Event) :
    (pool.run events).Fits rely ∧ rely.leads pool.world (pool.run events).world := by
  induction events using List.reverseRecOn with
  | nil => exact ⟨hfits, rely.refl _⟩
  | append_singleton events event ih =>
    obtain ⟨hfits', hlead⟩ := ih
    obtain ⟨-, hnext, hlead'⟩ := course_step hgoverns hfits' event
    rw [run_append_singleton]
    exact ⟨hnext, rely.trans hlead hlead'⟩

end Pool

/-! ## Tables that evolve -/

/-- Tables are keyed and only evolve, and `inv` holds of them. -/
def Rely.among (inv : Tables → Prop) : Rely where
  inv w := w.store.Keyed ∧ inv w.store
  leads v w := v.store.Evolves w.store
  refl w := .refl w.store
  trans := Tables.Evolves.trans
  draws _ hinv := ⟨hinv, .refl _⟩

theorem Rely.among_orderly (inv : Tables → Prop) : (Rely.among inv).Orderly where
  keyed hinv := hinv.1
  evolves hlead := hlead

/-- An invariant that deeds and surroundings keep is kept by all that can
happen. -/
theorem Rely.among_governs {inv : Tables → Prop}
    (hdeeds : ∀ {call w s result}, (Rely.among inv).inv w →
      Call.Deed (Rely.among inv) call w s result → inv s)
    (husers : ∀ {s} email name, inv s → inv (s.insertUser email name).2)
    (hfailures : ∀ {s : Tables} fail, inv s → inv { s with failSettling := fail }) :
    (Rely.among inv).Governs where
  deeds hinv hdeed :=
    ⟨⟨hdeed.keyed (among_orderly inv) hinv, hdeeds hinv hdeed⟩,
      hdeed.evolves (among_orderly inv) hinv⟩
  clocks _ hinv := ⟨hinv, .refl _⟩
  users email name hinv :=
    ⟨⟨hinv.1.of_eq rfl rfl rfl rfl rfl, husers email name hinv.2⟩, .of_eq rfl rfl⟩
  failures fail hinv :=
    ⟨⟨hinv.1.of_eq rfl rfl rfl rfl rfl, hfailures fail hinv.2⟩, .of_eq rfl rfl⟩

/-- Keyed tables that only evolve stay so with nothing more to keep. -/
theorem Rely.keyed_governs : (Rely.among fun _ => True).Governs :=
  Rely.among_governs (fun _ _ => trivial) (fun _ _ _ => trivial) fun _ _ => trivial

/-- Pools that start on an empty store keep their keys. -/
theorem Pool.start_fits (clock : Instant) (random : RandomSource) (events : List Event) :
    ((start clock random).run events).Fits (Rely.among fun _ => True) :=
  (fits_run Rely.keyed_governs (fits_nil ⟨Tables.empty_keyed, trivial⟩) events).1

end Roster
