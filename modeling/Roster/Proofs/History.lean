import Roster.Proofs.Pool

/-!
# Threads from their beginning

A thread goes by what it saw, and it can only have seen what was there after it
began.

* `Rely.along` — the company of a thread while events happen: every world that
  it sees is one that a first part of the events has made;
* `Pool.fits_along` — with that company a thread keeps to the deeds of its call;
* `Pool.returned_along` — so whatever the deed goes by with which a thread returns
  was seen while the thread ran;
* `Pool.begun` — every thread was begun by an event of the run.
-/

namespace Roster

/-- The company of a thread while events happen in a pool. What there is to be
seen are the tables and the clock after a first part of the events. -/
def Rely.along (rely : Rely) (pool : Pool) (events : List Event) : Rely where
  inv w := rely.inv w ∧ ∃ first, first <+: events ∧ (pool.run first).world.store = w.store ∧
    (pool.run first).world.clock = w.clock
  leads := rely.leads
  refl := rely.refl
  trans := rely.trans
  draws random hinv :=
    ⟨⟨(rely.draws random hinv.1).1, hinv.2⟩, (rely.draws random hinv.1).2⟩

section

variable {rely : Rely} {pool : Pool} {events : List Event}

/-- What was seen of the tables was so after a first part of the events. -/
theorem Rely.Seen.along {w : World Tables} (fact : Tables → Prop)
    (h : (rely.along pool events).Seen w fun v => fact v.store) :
    ∃ first, first <+: events ∧ fact (pool.run first).world.store := by
  obtain ⟨v, ⟨-, first, hfirst, hstore, -⟩, -, hfact⟩ := h
  exact ⟨first, hfirst, hstore ▸ hfact⟩

end

/-- A step is of the same call. -/
@[simp]
theorem Thread.step_call (thread : Thread) (w : World Tables) :
    (thread.step w).1.call = thread.call := by
  unfold Thread.step
  split <;> rfl

namespace Pool

variable {rely : Rely} {pool : Pool} {i : Nat} {thread : Thread}

/-- A thread stays as it is while others take their steps. -/
theorem getElem?_step_other (hthread : pool.threads[i]? = some thread) {event : Event}
    (hother : event.thread? ≠ some i) : (pool.step event).threads[i]? = some thread := by
  cases event with
  | begins call =>
    obtain ⟨hlt, -⟩ := List.getElem?_eq_some_iff.mp hthread
    exact (List.getElem?_append_left hlt).trans hthread
  | proceeds j =>
    have hne : j ≠ i := fun heq => hother (congrArg some heq)
    cases hj : pool.threads[j]? with
    | none =>
      simp only [step, hj]
      exact hthread
    | some other =>
      rw [step_proceeds hj]
      exact (List.getElem?_set_ne hne).trans hthread
  | setClock clock => exact hthread
  | insertUser email name => exact hthread
  | failSettling fail => exact hthread

/-- After an event a thread is one that was there, with the same call, or the one
that the event began. -/
theorem getElem?_step_cases {event : Event} (hthread : (pool.step event).threads[i]? = some thread) :
    (event = .begins thread.call ∧ i = pool.threads.length) ∨
      ∃ before, pool.threads[i]? = some before ∧ before.call = thread.call := by
  cases event with
  | begins call =>
    rcases Nat.lt_or_ge i pool.threads.length with hlt | hge
    · have hold : (pool.threads ++ [⟨call, call.program⟩])[i]? = some thread := hthread
      rw [List.getElem?_append_left hlt] at hold
      exact .inr ⟨thread, hold, rfl⟩
    · have hnew : (pool.threads ++ [⟨call, call.program⟩])[i]? = some thread := hthread
      rw [List.getElem?_append_right hge] at hnew
      obtain ⟨hzero, hlast⟩ := List.getElem?_eq_some_iff.mp hnew
      rw [List.getElem_singleton] at hlast
      rw [List.length_singleton] at hzero
      refine .inl ⟨?_, by omega⟩
      rw [← hlast]
  | proceeds j =>
    cases hj : pool.threads[j]? with
    | none =>
      simp only [step, hj] at hthread
      exact .inr ⟨thread, hthread, rfl⟩
    | some other =>
      rw [step_proceeds hj] at hthread
      rcases getElem?_set_cases hthread with ⟨rfl, rfl⟩ | ⟨-, hold⟩
      · exact .inr ⟨other, hj, (other.step_call pool.world).symm⟩
      · exact .inr ⟨thread, hold, rfl⟩
  | setClock clock => exact .inr ⟨thread, hthread, rfl⟩
  | insertUser email name => exact .inr ⟨thread, hthread, rfl⟩
  | failSettling fail => exact .inr ⟨thread, hthread, rfl⟩

/-- Where there was no thread in the beginning, every thread was begun by an event
of the run, in the place that was free then. -/
theorem begun (hempty : pool.threads = []) (events : List Event)
    (hthread : (pool.run events).threads[i]? = some thread) :
    ∃ early mid, events = early ++ .begins thread.call :: mid ∧
      (pool.run early).threads.length = i := by
  induction events using List.reverseRecOn generalizing thread with
  | nil =>
    rw [run_nil, hempty] at hthread
    cases hthread
  | append_singleton events event ih =>
    rw [run_append_singleton] at hthread
    rcases getElem?_step_cases hthread with ⟨rfl, rfl⟩ | ⟨before, hbefore, hcall⟩
    · exact ⟨events, [], rfl, rfl⟩
    · obtain ⟨early, mid, rfl, hlength⟩ := ih hbefore
      refine ⟨early, mid ++ [event], ?_, hlength⟩
      rw [hcall, List.append_assoc, List.cons_append]

/-- A thread that begins in a pool keeps to the deeds of its call, and what it goes
by is seen while the later events happen. -/
theorem fits_along (hgoverns : rely.Governs) (hfits : pool.Fits rely) (call : Call)
    (events : List Event) :
    let began := pool.step (.begins call)
    ∃ thread, (began.run events).threads[pool.threads.length]? = some thread ∧
      thread.call = call ∧ thread.Fits (rely.along began events) (began.run events).world := by
  intro began
  have hbegan : began.Fits rely := (course_step hgoverns hfits (.begins call)).2.1
  -- the company is that of all the events, and the induction is over their first parts
  suffices hall : ∀ first, first <+: events →
      ∃ thread, (began.run first).threads[pool.threads.length]? = some thread ∧
        thread.call = call ∧ thread.Fits (rely.along began events) (began.run first).world by
    exact hall events List.prefix_rfl
  intro first
  induction first using List.reverseRecOn with
  | nil =>
    intro hprefix
    refine ⟨⟨call, call.program⟩, List.getElem?_concat_length, rfl, ?_⟩
    intro _
    exact call.abides ⟨hbegan.inv, [], hprefix, rfl, rfl⟩
  | append_singleton first event ih =>
    intro hprefix
    have hfirst : first <+: events := (List.prefix_append first [event]).trans hprefix
    obtain ⟨thread, hthread, hcall, hkeeps⟩ := ih hfirst
    have hpool := (fits_run hgoverns hbegan first).1
    have hinv : (rely.along began events).inv (began.run first).world :=
      ⟨hpool.inv, first, hfirst, rfl, rfl⟩
    rw [run_append_singleton]
    by_cases hown : event = .proceeds pool.threads.length
    · obtain ⟨-, hkeeps'⟩ := course_of_fits hinv hthread hkeeps
      obtain ⟨hlt, -⟩ := List.getElem?_eq_some_iff.mp hthread
      rw [hown, step_proceeds hthread]
      exact ⟨_, List.getElem?_set_self hlt, (thread.step_call _).trans hcall, hkeeps'⟩
    · have hother : event.thread? ≠ some pool.threads.length :=
        fun heq => hown (Event.thread?_eq_some.mp heq)
      obtain ⟨-, -, hlead⟩ := course_step hgoverns hpool event
      refine ⟨thread, getElem?_step_other hthread hother, hcall, ?_⟩
      intro hnone
      exact (hkeeps hnone).lead hlead hnone

/-- A thread that returns came to its result quietly, or the step with which it
returns is the deed of its call; and what the deed goes by was seen since the thread
began. -/
theorem returned_along (hgoverns : rely.Governs) (hfits : pool.Fits rely) (call : Call)
    (events : List Event) {before after : Thread} {result : Except Failure Answer} :
    let began := pool.step (.begins call)
    let next := (began.run events).step (.proceeds pool.threads.length)
    (began.run events).threads[pool.threads.length]? = some before → before.result? = none →
    next.threads[pool.threads.length]? = some after → after.result? = some result →
    (next.world.store = (began.run events).world.store ∧ call.Quiet result) ∨
      call.Deed (rely.along began events) (began.run events).world next.world.store result := by
  intro began next hbefore hnone hafter hresult
  have hbegan : began.Fits rely := (course_step hgoverns hfits (.begins call)).2.1
  have hpool := (fits_run hgoverns hbegan events).1
  have hinv : (rely.along began events).inv (began.run events).world :=
    ⟨hpool.inv, events, List.prefix_rfl, rfl, rfl⟩
  obtain ⟨thread, hthread, rfl, hkeeps⟩ := fits_along hgoverns hfits call events
  obtain ⟨hcourse, -⟩ := course_of_fits hinv hthread hkeeps
  obtain rfl : before = thread := Option.some.inj (hbefore.symm.trans hthread)
  exact (hcourse.returned hbefore hnone hafter hresult).2

end Pool

end Roster
