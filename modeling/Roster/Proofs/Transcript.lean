import Roster.Proofs.History

/-!
# Transcripts

A transcript lists what a program asks, with the answers. Each answer is one that some world
gives, and nothing is said about how these worlds hang together: the transcripts of a program are
those of its runs alone, and of all its runs among others.

* `Exchange` — a request with its answer, and `Exchange.lines` — what it writes to the log;
* `Program.Transcript` — the transcripts of a program with what it then comes to, and
  `Program.Transcript.of_bind` — those of its parts, one after another;
* `Program.transcript`, `Program.transcript_run` — the transcript of a program run alone;
* `Pool.transcript`, `Pool.transcript_call` — the transcript of a thread among others.
-/

namespace Roster

variable {α β : Type}

/-- A request with the answer to it. -/
structure Exchange where
  {type : Type}
  request : Request type
  answer : type

/-- What a request writes to the log, if the tables write nothing. -/
def Exchange.lines : Exchange → List LogLine
  | ⟨.log line, _⟩ => [line]
  | _ => []

/-- The request with the answer of a world. -/
def World.exchange (w : World Tables) (request : Request β) : Exchange :=
  ⟨request, (w.answer request).reply⟩

/-- Tables log nothing. -/
theorem Tables.perform_log (call : StoreCall α) (s : Tables) : (Store.perform call s).log = [] := by
  rw [Tables.perform_eq]
  cases s.perform call <;> rfl

theorem Work.run_log (work : Work α) (time : Instant) (s : Tables) :
    (work.run time s).log = [] := by
  induction work generalizing s with
  | done result => rfl
  | clock next ih => exact ih time s
  | call c next ih =>
    have hcall := Tables.perform_log c s
    cases hresult : (Store.perform c s).result with
    | error e => simp only [run, Outcome.andThen, hresult, hcall]
    | ok reply => simp only [run, Outcome.andThen, hresult, hcall, ih, List.append_nil]

/-- A step logs the lines of its exchange. -/
theorem World.answer_log (w : World Tables) (request : Request β) :
    (w.answer request).log = (w.exchange request).lines := by
  cases request with
  | store call => exact Tables.perform_log call w.store
  | atomically unit =>
    have hlog := unit.work.run_log w.clock w.store
    simp only [answer, take, Work.runAtomically]
    split <;> exact hlog
  | _ => rfl

namespace Program

/-- The exchanges of a program up to its end, each with some world, and what it comes to. -/
inductive Transcript : Program α → List Exchange → Except Failure α → Prop
  | done (result : Except Failure α) : Transcript (.done result) [] result
  | ask {β : Type} (w : World Tables) {request : Request β} {next : β → Program α}
      {rest : List Exchange} {result : Except Failure α}
      (h : Transcript (next (w.answer request).reply) rest result) :
      Transcript (.ask request next) (w.exchange request :: rest) result

variable {exchanges : List Exchange}

/-- Programs one after another have transcripts one after another. -/
theorem Transcript.of_bind {program : Program α} {f : α → Program β} {result : Except Failure β}
    (h : (program >>= f).Transcript exchanges result) :
    (∃ e, program.Transcript exchanges (.error e) ∧ result = .error e) ∨
      ∃ a early late, program.Transcript early (.ok a) ∧ (f a).Transcript late result ∧
        exchanges = early ++ late := by
  induction program generalizing exchanges with
  | done first =>
    cases first with
    | error e =>
      cases h
      exact .inl ⟨e, .done _, rfl⟩
    | ok a => exact .inr ⟨a, [], exchanges, .done _, h, rfl⟩
  | ask request next ih =>
    cases h with
    | ask w h =>
      rcases ih _ h with ⟨e, hfirst, rfl⟩ | ⟨a, early, late, hfirst, hrest, rfl⟩
      · exact .inl ⟨e, .ask w hfirst, rfl⟩
      · exact .inr ⟨a, w.exchange request :: early, late, .ask w hfirst, hrest, rfl⟩

/-- A changed result has the same transcript. -/
theorem Transcript.of_map {program : Program α} {g : α → β} {result : Except Failure β}
    (h : (program.map g).Transcript exchanges result) :
    ∃ first, program.Transcript exchanges first ∧ result = first.map g := by
  rw [map_eq] at h
  rcases h.of_bind with ⟨e, hfirst, rfl⟩ | ⟨a, early, late, hfirst, hrest, rfl⟩
  · exact ⟨.error e, hfirst, rfl⟩
  · cases hrest
    exact ⟨.ok a, by rwa [List.append_nil], rfl⟩

/-- Every exchange is with some world. -/
theorem Transcript.answered {program : Program α} {result : Except Failure α}
    (h : program.Transcript exchanges result) {exchange : Exchange} (hmem : exchange ∈ exchanges) :
    ∃ w : World Tables, exchange = w.exchange exchange.request := by
  induction h with
  | done => cases hmem
  | ask w h ih =>
    rcases List.mem_cons.mp hmem with rfl | hmem
    · exact ⟨w, rfl⟩
    · exact ih hmem

/-! ## Alone -/

/-- The transcript of a program that is run alone. -/
def transcript : Program α → World Tables → List Exchange
  | .done _, _ => []
  | .ask request next, w =>
    let turn := w.answer request
    w.exchange request :: (next turn.reply).transcript turn.world

/-- A program that is run alone logs the lines of its transcript. -/
theorem transcript_run (program : Program α) (w : World Tables) :
    program.Transcript (program.transcript w) (program.run w).result ∧
      (program.run w).log = (program.transcript w).flatMap Exchange.lines := by
  induction program generalizing w with
  | done result => exact ⟨.done result, rfl⟩
  | ask request next ih =>
    obtain ⟨hrest, hlog⟩ := ih (w.answer request).reply (w.answer request).world
    refine ⟨.ask w hrest, ?_⟩
    simp only [run, transcript, hlog, World.answer_log, List.flatMap_cons]

end Program

/-! ## Among others -/

namespace Thread

/-- What a thread asks in its next step, if it has not ended. -/
def exchanges (thread : Thread) (w : World Tables) : List Exchange :=
  match thread.rest with
  | .done _ => []
  | .ask request _ => [w.exchange request]

/-- What it logs in that step. -/
def lines (thread : Thread) (w : World Tables) : List LogLine :=
  match thread.rest with
  | .done _ => []
  | .ask request _ => (w.answer request).log

theorem lines_eq (thread : Thread) (w : World Tables) :
    thread.lines w = (thread.exchanges w).flatMap Exchange.lines := by
  unfold lines exchanges
  cases thread.rest with
  | done result => rfl
  | ask request next => simp only [World.answer_log, List.flatMap_singleton]

/-- What a thread asks comes before what is left of it after the step. -/
theorem step_transcript {thread : Thread} {w : World Tables} {late : List Exchange}
    {result : Except Failure Answer} (h : (thread.step w).1.rest.Transcript late result) :
    thread.rest.Transcript (thread.exchanges w ++ late) result := by
  unfold step at h
  unfold exchanges
  split at h
  · rename_i hrest
    rw [hrest] at h ⊢
    exact h
  · rename_i hrest
    rw [hrest]
    exact .ask w h

end Thread

namespace Pool

/-- What is collected from the steps that the thread at a place takes. -/
def collect {γ : Type*} (take : Thread → World Tables → List γ) (i : Nat) :
    Pool → List Event → List γ
  | _, [] => []
  | pool, event :: rest =>
    (if event.thread? = some i then pool.threads[i]?.elim [] (take · pool.world) else []) ++
      collect take i (pool.step event) rest

/-- What the thread at a place asks during events. -/
def transcript (pool : Pool) (i : Nat) (events : List Event) : List Exchange :=
  pool.collect Thread.exchanges i events

/-- What it logs during events. -/
def log (pool : Pool) (i : Nat) (events : List Event) : List LogLine :=
  pool.collect Thread.lines i events

/-- A thread logs the lines of its transcript. -/
theorem log_eq (pool : Pool) (i : Nat) (events : List Event) :
    pool.log i events = (pool.transcript i events).flatMap Exchange.lines := by
  unfold log transcript
  induction events generalizing pool with
  | nil => rfl
  | cons event rest ih =>
    simp only [collect, List.flatMap_append, ih]
    split
    · cases pool.threads[i]? with
      | none => rfl
      | some thread => simp only [Option.elim_some, Thread.lines_eq]
    · rfl

variable {pool : Pool} {i : Nat} {thread after : Thread} {late : List Exchange}
  {result : Except Failure Answer}

/-- A thread asks before anything that it asks later. -/
theorem transcript_own (h : pool.threads[i]? = some thread) (events : List Event) :
    pool.transcript i (.proceeds i :: events) =
      thread.exchanges pool.world ++ (pool.step (.proceeds i)).transcript i events := by
  simp only [transcript, collect, Event.thread?, if_true, h, Option.elim_some]

/-- Where no thread takes a step nothing is asked. -/
theorem transcript_other {event : Event}
    (h : event.thread? ≠ some i ∨ pool.threads[i]? = none) (events : List Event) :
    pool.transcript i (event :: events) = (pool.step event).transcript i events := by
  rcases h with h | h
  · simp only [transcript, collect, if_neg h, List.nil_append]
  · simp only [transcript, collect, h, Option.elim_none, ite_self, List.nil_append]

/-- What a thread asks during events comes before what is left of it then. -/
theorem transcript_rest (h : pool.threads[i]? = some thread) (events : List Event)
    (hafter : (pool.run events).threads[i]? = some after)
    (hlate : after.rest.Transcript late result) :
    after.call = thread.call ∧
      thread.rest.Transcript (pool.transcript i events ++ late) result := by
  induction events generalizing pool thread with
  | nil =>
    obtain rfl := Option.some.inj (h.symm.trans hafter)
    exact ⟨rfl, hlate⟩
  | cons event rest ih =>
    by_cases hown : event.thread? = some i
    · obtain rfl := Event.thread?_eq_some.mp hown
      have hstep : (pool.step (.proceeds i)).threads[i]? = some (thread.step pool.world).1 := by
        rw [step_proceeds h]
        exact List.getElem?_set_self (List.getElem?_eq_some_iff.mp h).1
      obtain ⟨hcall, hrest⟩ := ih hstep hafter
      rw [transcript_own h, List.append_assoc]
      exact ⟨hcall.trans (thread.step_call pool.world), Thread.step_transcript hrest⟩
    · rw [transcript_other (.inl hown)]
      exact ih (getElem?_step_other h hown) hafter

/-- What a thread has asked since it began comes before what is left of it, in a transcript of its
call. -/
theorem transcript_call (hfresh : pool.threads[i]? = none) (events : List Event)
    (hafter : (pool.run events).threads[i]? = some after)
    (hlate : after.rest.Transcript late result) :
    after.call.program.Transcript (pool.transcript i events ++ late) result := by
  induction events generalizing pool with
  | nil =>
    rw [run_nil, hfresh] at hafter
    cases hafter
  | cons event rest ih =>
    rw [transcript_other (.inr hfresh)]
    cases hnext : (pool.step event).threads[i]? with
    | none => exact ih hnext hafter
    | some thread =>
      rcases getElem?_step_cases hnext with ⟨rfl, rfl⟩ | ⟨before, hbefore, -⟩
      · obtain ⟨hcall, htranscript⟩ := transcript_rest hnext rest hafter hlate
        have hbegun : thread = ⟨thread.call, thread.call.program⟩ :=
          (Option.some.inj (List.getElem?_concat_length.symm.trans hnext)).symm
        rw [hcall]
        rw [hbegun] at htranscript
        exact htranscript
      · rw [hfresh] at hbefore
        cases hbefore

end Pool

end Roster
