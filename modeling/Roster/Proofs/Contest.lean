import Roster.Proofs.FreeSeats

/-!
# Contests

Several calls that run at the same time contend for one change of the tables: the first
that writes it wins, and every other one is told that it came too late.

* `Contest` — the tables before it is decided, what is so afterwards, and what the winner
  and the others come to;
* `Program.Contends` — whatever its rivals do between its steps, a program ends in so many
  steps, as the winner or as one of the others; one rule for each kind of request;
* `Pool.Contested` — how a pool stands in which calls contend, with or without a winner;
  `Pool.Contested.step` and `Pool.contested_run` keep it;
* `Pool.one_wins` — when all have taken their steps, there is exactly one winner.

A call may draw a token on the way. Tokens that rivals draw must have digests of their own
(`Pool.Distinct`); the token that a call has drawn is part of where it stands.
-/

namespace Roster

/-- What calls contend for: `now` and `before` are the time and the tables in which it is
free, and `taken` holds of the tables once it is not. -/
structure Contest (α : Type) where
  now : Instant
  before : Tables
  taken : Tables → Prop
  prize : α → Prop
  lost : TeamError

/-- The same contest for programs whose result is changed afterwards. -/
def Contest.through {α β : Type} (contest : Contest β) (g : α → β) : Contest α :=
  { contest with prize := fun a => contest.prize (g a) }

/-- No invitation has the digest of a token. -/
def Tables.Lacks (s : Tables) (token : String) : Prop :=
  s.findInvitationByToken (Token.hash token) = none

instance (s : Tables) (token : String) : Decidable (s.Lacks token) :=
  inferInstanceAs (Decidable (_ = none))

theorem Tables.lacks_iff {s : Tables} {token : String} :
    s.Lacks token ↔ Token.hash token ∉ s.invitations.map (·.tokenHash) := by
  simp [Lacks, findInvitationByToken]

/-- The token that a request draws with its answer. -/
def Request.drawn? : {α : Type} → Request α → α → Option String
  | _, .token _, text => some text
  | _, _, _ => none

section

variable {α : Type} (held : Option String)

@[simp]
theorem Request.or_drawn?_store (call : StoreCall α) (reply : Except TeamError α) :
    held.or (drawn? (.store call) reply) = held := Option.or_none

@[simp]
theorem Request.or_drawn?_now (reply : Instant) : held.or (drawn? .now reply) = held :=
  Option.or_none

@[simp]
theorem Request.or_drawn?_userByEmail (email : String) (reply : Option User) :
    held.or (drawn? (.userByEmail email) reply) = held := Option.or_none

end

namespace Program

variable {α β : Type}

/-- A program takes part in a contest: it ends in so many steps at most. As long as nothing
is decided, a step of it leaves the tables alone or wins; later no step changes them, and
the program fails. `held` is the token that it has drawn, and the winner stores no other. -/
def Contends (contest : Contest α) : Program α → Nat → Option String → Prop
  | .done _, _, _ => False
  | .ask request next, steps, held =>
    (ask request next).outcome? = none ∧ 0 < steps ∧
    ∀ w : World Tables, w.clock = contest.now → (∀ token ∈ held, w.store.Lacks token) →
      let turn := w.answer request
      let goesOn := (next turn.reply).Contends contest (steps - 1)
        (held.or (request.drawn? turn.reply))
      (w.store = contest.before →
        turn.world.store = contest.before ∧ goesOn ∨
        contest.taken turn.world.store ∧
          (∀ token, contest.before.Lacks token → (∀ own ∈ held, Token.hash token ≠ Token.hash own) →
            turn.world.store.Lacks token) ∧
          ∃ a, (next turn.reply).outcome? = some (.ok a) ∧ contest.prize a) ∧
      (contest.taken w.store → turn.world.store = w.store ∧
        (goesOn ∨ (next turn.reply).outcome? = some (.error (.error contest.lost))))

variable {contest : Contest α} {steps : Nat} {held : Option String}

/-- As long as a program contends it has not come to a result. -/
theorem Contends.outcome? {program : Program α} (h : program.Contends contest steps held) :
    program.outcome? = none := by
  cases program with
  | done result => exact h.elim
  | ask request next => exact h.1

theorem Contends.pos {program : Program α} (h : program.Contends contest steps held) :
    0 < steps := by
  cases program with
  | done result => exact h.elim
  | ask request next => exact h.2.1

/-! ## Rules -/

variable {f : β → Program α}

/-- A request that changes no tables leaves everything open, or its answer shows that it is
too late. -/
private theorem contends_ask {request : Request β} {next : β → Program α}
    (hout : (ask request next).outcome? = none)
    (hstore : ∀ w : World Tables, (w.answer request).world.store = w.store)
    (hfree : ∀ w : World Tables, w.clock = contest.now → w.store = contest.before →
      (next (w.answer request).reply).Contends contest steps
        (held.or (request.drawn? (w.answer request).reply)))
    (htaken : ∀ w : World Tables, w.clock = contest.now → contest.taken w.store →
      (next (w.answer request).reply).Contends contest steps
        (held.or (request.drawn? (w.answer request).reply)) ∨
      (next (w.answer request).reply).outcome? = some (.error (.error contest.lost))) :
    (ask request next).Contends contest (steps + 1) held := by
  refine ⟨hout, Nat.succ_pos steps, ?_⟩
  intro w hclock _
  constructor
  · intro hbefore
    exact .inl ⟨(hstore w).trans hbefore, hfree w hclock hbefore⟩
  · intro hlate
    exact ⟨hstore w, htaken w hclock hlate⟩

/-- A call that only reads. -/
theorem contends_read {call : StoreCall β} (view : Tables → β)
    (hview : ∀ s : Tables, s.perform call = s.reading (view s))
    (hfree : (f (view contest.before)).Contends contest steps held)
    (htaken : ∀ s, contest.taken s → (f (view s)).Contends contest steps held ∨
      (f (view s)).outcome? = some (.error (.error contest.lost))) :
    (ofWork (Work.perform call) >>= f).Contends contest (steps + 1) held := by
  rw [ofWork_perform_bind]
  have hturn : ∀ w : World Tables, w.answer (.store call) = ⟨.ok (view w.store), [], w⟩ :=
    fun _ => answer_ok (hview _)
  refine contends_ask rfl (fun w => by rw [hturn]) ?_ ?_
  · intro w _ hbefore
    rw [hturn, Request.or_drawn?_store, hbefore]
    exact hfree
  · intro w _ hlate
    rw [hturn, Request.or_drawn?_store]
    exact htaken w.store hlate

/-- A call that only reads, and what it reads is not what the calls contend for. -/
theorem contends_read_stable {call : StoreCall β} (view : Tables → β)
    (hview : ∀ s : Tables, s.perform call = s.reading (view s))
    (hstable : ∀ s, contest.taken s → view s = view contest.before)
    (h : (f (view contest.before)).Contends contest steps held) :
    (ofWork (Work.perform call) >>= f).Contends contest (steps + 1) held :=
  contends_read view hview h fun s hlate => .inl (hstable s hlate ▸ h)

/-! What is no request takes no step. -/

theorem contends_require {condition : Bool} {e : TeamError} {f : Unit → Program α}
    (hcondition : condition = true) (h : (f ()).Contends contest steps held) :
    (ofWork (Work.require condition e) >>= f).Contends contest steps held := by
  subst hcondition
  exact h

theorem contends_found {e : TeamError} {found : Option β} {b : β} (hfound : found = some b)
    (h : (f b).Contends contest steps held) :
    (ofWork (Work.found e found) >>= f).Contends contest steps held := by
  subst hfound
  exact h

theorem contends_ofInput {input : Except InvalidInput β} {b : β} (hinput : input = .ok b)
    (h : (f b).Contends contest steps held) :
    (ofWork (Work.ofInput input) >>= f).Contends contest steps held := by
  subst hinput
  exact h

theorem contends_later {now time : Instant} {duration : Duration} {f : Instant → Program α}
    (htime : now.add? duration = some time) (h : (f time).Contends contest steps held) :
    (later now duration >>= f).Contends contest steps held := by
  rw [later, htime]
  exact h

theorem outcome?_require {condition : Bool} {e : TeamError} {f : Unit → Program α}
    (hcondition : condition = false) :
    (ofWork (Work.require condition e) >>= f).outcome? = some (.error (.error e)) := by
  subst hcondition
  rfl

theorem outcome?_found {e : TeamError} {found : Option β} (hfound : found = none) :
    (ofWork (Work.found e found) >>= f).outcome? = some (.error (.error e)) := by
  subst hfound
  rfl

/-! The requests that are no calls. -/

theorem contends_now {f : Instant → Program α}
    (h : (f contest.now).Contends contest steps held) :
    (ofWork Work.now >>= f).Contends contest (steps + 1) held := by
  have hgoes : ∀ w : World Tables, w.clock = contest.now →
      (f w.clock).Contends contest steps (held.or (Request.drawn? .now w.clock)) := by
    intro w hclock
    rw [Request.or_drawn?_now, hclock]
    exact h
  exact contends_ask rfl (fun _ => rfl) (fun w hclock _ => hgoes w hclock)
    fun w hclock _ => .inl (hgoes w hclock)

/-- Who has an address is not what the calls contend for. -/
theorem contends_userByEmail {email : String} {f : Option User → Program α}
    (hstable : ∀ s, contest.taken s →
      s.findUserByEmail email = contest.before.findUserByEmail email)
    (h : (f (contest.before.findUserByEmail email)).Contends contest steps held) :
    (userByEmail email >>= f).Contends contest (steps + 1) held := by
  have hgoes : ∀ w : World Tables,
      w.store.findUserByEmail email = contest.before.findUserByEmail email →
      (f (w.answer (.userByEmail email)).reply).Contends contest steps
        (held.or (Request.drawn? (.userByEmail email) (w.answer (.userByEmail email)).reply)) := by
    intro w hsame
    have hreply : (w.answer (.userByEmail email)).reply = contest.before.findUserByEmail email :=
      hsame
    rw [Request.or_drawn?_userByEmail, hreply]
    exact h
  refine contends_ask rfl (fun _ => rfl) ?_ ?_
  · intro w _ hbefore
    exact hgoes w (by rw [hbefore])
  · intro w _ hlate
    exact .inl (hgoes w (hstable w.store hlate))

/-- From here on the program holds the token that it draws. -/
theorem contends_token {length : Nat} {f : String → Program α}
    (h : ∀ token, (f token).Contends contest steps (some token)) :
    (token length >>= f).Contends contest (steps + 1) none :=
  contends_ask rfl (fun _ => rfl) (fun _ _ _ => h _) fun _ _ _ => .inl (h _)

/-- A unit of work wins, if nothing is decided. It stores no token. -/
theorem contends_atomically {unit : UnitOfWork β}
    (hfree : ∃ a s, unit.work.Gives contest.now contest.before a s ∧ contest.taken s ∧
      (∀ token, contest.before.Lacks token → s.Lacks token) ∧
      ∃ result, (f a).outcome? = some (.ok result) ∧ contest.prize result)
    (htaken : ∀ s, contest.taken s →
      (unit.work.run contest.now s).result = .error contest.lost) :
    (atomically unit >>= f).Contends contest (steps + 1) held := by
  refine ⟨rfl, Nat.succ_pos steps, ?_⟩
  intro w hclock _
  constructor
  · intro hbefore
    obtain ⟨a, s, hgives, hnow, hlacks, hresult⟩ := hfree
    rw [← hclock, ← hbefore] at hgives
    rw [World.answer_atomically_of_gives unit hgives]
    exact .inr ⟨hnow, fun token hfresh _ => hlacks token hfresh, hresult⟩
  · intro hlate
    have hresult := htaken w.store hlate
    rw [← hclock] at hresult
    have hturn : (w.answer (.atomically unit)).reply = .error contest.lost ∧
        (w.answer (.atomically unit)).world = w := by
      simp only [World.answer, World.take, Work.runAtomically, hresult, and_self]
    rw [hturn.1, hturn.2]
    exact ⟨rfl, .inr rfl⟩

/-- A call that writes wins, if nothing is decided. It stores the token that is held. -/
theorem contends_write {call : StoreCall β} {own : String}
    (hfree : contest.before.Lacks own → ∃ a s, contest.before.perform call = .ok (a, s) ∧
      contest.taken s ∧
      (∀ token, contest.before.Lacks token → Token.hash token ≠ Token.hash own → s.Lacks token) ∧
      ∃ result, (f a).outcome? = some (.ok result) ∧ contest.prize result)
    (htaken : ∀ s : Tables, contest.taken s → s.Lacks own →
      s.perform call = .error contest.lost) :
    (ofWork (Work.perform call) >>= f).Contends contest (steps + 1) (some own) := by
  rw [ofWork_perform_bind]
  refine ⟨rfl, Nat.succ_pos steps, ?_⟩
  intro w _ hheld
  have hlacks : w.store.Lacks own := hheld own rfl
  constructor
  · intro hbefore
    rw [hbefore] at hlacks
    obtain ⟨a, s, hperform, hnow, hothers, hresult⟩ := hfree hlacks
    rw [← hbefore] at hperform
    rw [answer_ok hperform]
    exact .inr ⟨hnow, fun token hfresh hother => hothers token hfresh (hother own rfl), hresult⟩
  · intro hlate
    rw [answer_error (htaken w.store hlate hlacks)]
    exact ⟨rfl, .inr rfl⟩

/-- A changed result is contended for in the same way. -/
theorem Contends.map {γ : Type} {contest : Contest γ} {program : Program α} {g : α → γ}
    (h : program.Contends (contest.through g) steps held) :
    (program.map g).Contends contest steps held := by
  induction program generalizing steps held with
  | done result => exact h.elim
  | ask request next ih =>
    obtain ⟨hout, hpos, hstep⟩ := h
    have hlost : ∀ {program : Program α},
        program.outcome? = some (.error (.error contest.lost)) →
        (program.map g).outcome? = some (.error (.error contest.lost)) := by
      intro program hprogram
      rw [outcome?_map, hprogram]
      rfl
    refine ⟨(outcome?_map g (ask request next)).trans (by rw [hout]; rfl), hpos, ?_⟩
    intro w hclock hheld
    obtain ⟨hfree, htaken⟩ := hstep w hclock hheld
    constructor
    · intro hbefore
      rcases hfree hbefore with ⟨hstore, hgoes⟩ | ⟨hnow, hothers, a, hresult, hprize⟩
      · exact .inl ⟨hstore, ih _ hgoes⟩
      · refine .inr ⟨hnow, hothers, g a, ?_, hprize⟩
        exact (outcome?_map g (next _)).trans (by rw [hresult]; rfl)
    · intro hlate
      obtain ⟨hstore, hgoes | hresult⟩ := htaken hlate
      · exact ⟨hstore, .inl (ih _ hgoes)⟩
      · exact ⟨hstore, .inr (hlost hresult)⟩

end Program

/-! ## Programs that draw no token -/

/-- The program draws no token, whatever it is answered. -/
def Program.Tokenless {α : Type} : Program α → Prop
  | .done _ => True
  | .ask request next => ∀ reply, request.drawn? reply = none ∧ (next reply).Tokenless

namespace Program

variable {α β : Type}

theorem Tokenless.bind {program : Program β} {f : β → Program α} (h : program.Tokenless)
    (hf : ∀ b, (f b).Tokenless) : (program >>= f).Tokenless := by
  change (program.bind f).Tokenless
  induction program with
  | done result =>
    cases result with
    | ok b => exact hf b
    | error e => trivial
  | ask request next ih => exact fun reply => ⟨(h reply).1, ih reply (h reply).2⟩

theorem tokenless_ofExcept (result : Except TeamError α) : (ofExcept result).Tokenless := by
  cases result <;> trivial

/-- Work on a store draws no token. -/
theorem tokenless_ofWork (work : Work α) : (ofWork work).Tokenless := by
  induction work with
  | done result => exact tokenless_ofExcept result
  | call c next ih =>
    rw [ofWork]
    intro reply
    cases reply with
    | ok a => exact ⟨rfl, ih a⟩
    | error e => exact ⟨rfl, trivial⟩
  | clock next ih => exact fun now => ⟨rfl, ih now⟩

theorem tokenless_atomically (unit : UnitOfWork α) : (atomically unit).Tokenless :=
  fun reply => ⟨rfl, tokenless_ofExcept reply⟩

theorem tokenless_log (line : LogLine) : (log line).Tokenless :=
  fun _ => ⟨rfl, trivial⟩

theorem Tokenless.map {program : Program β} (h : program.Tokenless) (g : β → α) :
    (program.map g).Tokenless := by
  rw [map_eq]
  exact h.bind fun _ => trivial

end Program

/-! ## Tokens that are drawn -/

/-- The token that the next step of a thread draws. -/
def Thread.draw? (thread : Thread) (w : World Tables) : Option String :=
  match thread.rest with
  | .ask request _ => request.drawn? (w.answer request).reply
  | .done _ => none

/-- A step of a thread that draws no token draws none, nor does the rest of it. -/
theorem Program.Tokenless.step {thread : Thread} (h : thread.rest.Tokenless) (w : World Tables) :
    thread.draw? w = none ∧ (thread.step w).1.rest.Tokenless := by
  obtain ⟨call, program⟩ := thread
  cases program with
  | done result => exact ⟨rfl, trivial⟩
  | ask request next => exact h (w.answer request).reply

namespace Pool

/-- The token that a thread draws with an event. -/
def draw? (pool : Pool) (i : Nat) (event : Event) : Option String :=
  if event.thread? = some i then pool.threads[i]?.bind (·.draw? pool.world) else none

/-- The first token that a thread draws while events happen. -/
def drawn? (pool : Pool) (i : Nat) : List Event → Option String
  | [] => none
  | event :: rest => (pool.draw? i event).or ((pool.step event).drawn? i rest)

/-- The tokens that `count` threads, the first in the place `first`, draw while events
happen: no invitation has the digest of one, and no two have the same. -/
structure Distinct (pool : Pool) (first count : Nat) (events : List Event) : Prop where
  fresh : ∀ j < count, ∀ token ∈ pool.drawn? (first + j) events, pool.world.store.Lacks token
  apart : ∀ j < count, ∀ k < count, j ≠ k → ∀ token ∈ pool.drawn? (first + j) events,
    ∀ other ∈ pool.drawn? (first + k) events, Token.hash token ≠ Token.hash other

instance (pool : Pool) (first count : Nat) (events : List Event) :
    Decidable (pool.Distinct first count events) :=
  decidable_of_iff (_ ∧ _) ⟨fun h => ⟨h.1, h.2⟩, fun h => ⟨h.fresh, h.apart⟩⟩

variable {pool : Pool} {i : Nat} {events : List Event} {event : Event}

theorem drawn?_append_singleton (pool : Pool) (i : Nat) (events : List Event) (event : Event) :
    pool.drawn? i (events ++ [event]) =
      (pool.drawn? i events).or ((pool.run events).draw? i event) := by
  induction events generalizing pool with
  | nil => simp [drawn?]
  | cons head rest ih => rw [List.cons_append, drawn?, drawn?, ih, Option.or_assoc, run_cons]

/-- While others take their steps a thread draws nothing. -/
theorem drawn?_append_other (pool : Pool) {events : List Event} {event : Event}
    (hother : event.thread? ≠ some i) : pool.drawn? i (events ++ [event]) = pool.drawn? i events := by
  rw [drawn?_append_singleton, draw?, if_neg hother, Option.or_none]

theorem drawn?_append_of_mem {token : String} (h : token ∈ pool.drawn? i events) (event : Event) :
    token ∈ pool.drawn? i (events ++ [event]) := by
  rw [drawn?_append_singleton, Option.mem_def.mp h]
  rfl

/-- Tokens that differ while events happen differ while the first of them happen. -/
theorem Distinct.of_append {first count : Nat} (h : pool.Distinct first count (events ++ [event])) :
    pool.Distinct first count events where
  fresh := fun j hj token htoken => h.fresh j hj token (drawn?_append_of_mem htoken event)
  apart := fun j hj k hk hne token htoken other hother =>
    h.apart j hj k hk hne token (drawn?_append_of_mem htoken event) other
      (drawn?_append_of_mem hother event)

/-- What a thread draws with a step of its own. -/
theorem draw?_proceeds {thread : Thread} (hthread : pool.threads[i]? = some thread) :
    pool.draw? i (.proceeds i) = thread.draw? pool.world := by
  have hown : (Event.proceeds i).thread? = some i := rfl
  rw [draw?, if_pos hown, hthread]
  rfl

/-- A thread that draws no token has none, whatever happens. -/
theorem drawn?_tokenless {thread : Thread} (hthread : pool.threads[i]? = some thread)
    (h : thread.rest.Tokenless) (events : List Event) : pool.drawn? i events = none := by
  induction events generalizing pool thread with
  | nil => rfl
  | cons event rest ih =>
    by_cases hown : event.thread? = some i
    · obtain rfl := Event.thread?_eq_some.mp hown
      obtain ⟨hlt, -⟩ := List.getElem?_eq_some_iff.mp hthread
      have hafter : (pool.step (.proceeds i)).threads[i]? = some (thread.step pool.world).1 := by
        rw [step_proceeds hthread]
        exact List.getElem?_set_self hlt
      obtain ⟨hdraw, hstep⟩ := h.step pool.world
      rw [drawn?, draw?_proceeds hthread, hdraw, Option.none_or]
      exact ih hafter hstep
    · have hdraw : pool.draw? i event = none := if_neg hown
      rw [drawn?, hdraw, Option.none_or]
      exact ih (getElem?_step_other hthread hown) h

end Pool

/-! ## Pools -/

/-- How a pool stands after the given events, in whose last threads, from `first` on,
`count` calls contend: either nothing is decided, or one of them has won and no other
result is a success. -/
structure Pool.Contested (contest : Contest Answer) (began : Pool) (first count steps : Nat)
    (events : List Event) (winner : Option Nat) (pool : Pool) : Prop where
  clock : pool.world.clock = contest.now
  undecided : winner = none → pool.world.store = contest.before
  decided : ∀ k ∈ winner, k < count ∧ contest.taken pool.world.store ∧
    ∃ thread answer, pool.threads[first + k]? = some thread ∧
      thread.result? = some (.ok answer) ∧ contest.prize answer
  lacks : ∀ token, contest.before.Lacks token →
    (∀ k ∈ winner, ∀ own ∈ began.drawn? (first + k) events, Token.hash token ≠ Token.hash own) →
    pool.world.store.Lacks token
  others : ∀ j < count, winner ≠ some j → ∃ thread, pool.threads[first + j]? = some thread ∧
    (thread.rest.Contends contest (steps - Event.stepsOf events (first + j))
        (began.drawn? (first + j) events) ∨
      winner ≠ none ∧ thread.result? = some (.error (.error contest.lost)))

namespace Pool

variable {contest : Contest Answer} {began pool : Pool} {first count steps : Nat}
  {events : List Event} {winner : Option Nat}

/-- Where the rivals of a call stand after a step of it. -/
private theorem Contested.rivals (h : Contested contest began first count steps events winner pool)
    {j k : Nat} {winner' : Option Nat} (hne : k ≠ j) (hk : k < count) (hother : winner ≠ some k)
    (hsome : winner ≠ none → winner' ≠ none) :
    ∃ thread, (pool.step (.proceeds (first + j))).threads[first + k]? = some thread ∧
      (thread.rest.Contends contest
          (steps - Event.stepsOf (events ++ [.proceeds (first + j)]) (first + k))
          (began.drawn? (first + k) (events ++ [.proceeds (first + j)])) ∨
        winner' ≠ none ∧ thread.result? = some (.error (.error contest.lost))) := by
  have hthread? : (Event.proceeds (first + j)).thread? ≠ some (first + k) := by
    simp only [Event.thread?, ne_eq, Option.some.injEq]
    omega
  have hsteps : Event.stepsOf (events ++ [.proceeds (first + j)]) (first + k) =
      Event.stepsOf events (first + k) := by
    simp [Event.stepsOf, hthread?]
  obtain ⟨thread, hthread, hstands⟩ := h.others k hk hother
  refine ⟨thread, getElem?_step_other hthread hthread?, ?_⟩
  rw [hsteps, drawn?_append_other began hthread?]
  exact hstands.imp id fun hlost => ⟨hsome hlost.1, hlost.2⟩

/-- A step of a call that has returned changes nothing. -/
private theorem Contested.idle (h : Contested contest began first count steps events winner pool)
    {j : Nat} {thread : Thread} {result : Except Failure Answer}
    (hthread : pool.threads[first + j]? = some thread) (hresult : thread.result? = some result) :
    Contested contest began first count steps (events ++ [.proceeds (first + j)]) winner
      (pool.step (.proceeds (first + j))) := by
  obtain ⟨thread', hstep, -, hresult'⟩ := Thread.step_returned hresult (w := pool.world)
  obtain ⟨hlt, -⟩ := List.getElem?_eq_some_iff.mp hthread
  have hworld : (pool.step (.proceeds (first + j))).world = pool.world := by
    rw [step_proceeds hthread, hstep]
  have hafter : (pool.step (.proceeds (first + j))).threads[first + j]? = some thread' := by
    rw [step_proceeds hthread, hstep]
    exact List.getElem?_set_self hlt
  constructor
  · rw [hworld]
    exact h.clock
  · rw [hworld]
    exact h.undecided
  · intro k hk
    rw [hworld]
    obtain ⟨hlt, htaken, other, answer, hother, hok, hprize⟩ := h.decided k hk
    refine ⟨hlt, htaken, ?_⟩
    by_cases hkj : k = j
    · subst hkj
      obtain rfl : thread = other := Option.some.inj (hthread.symm.trans hother)
      exact ⟨thread', answer, hafter, hresult'.trans (hresult.symm.trans hok), hprize⟩
    · refine ⟨other, answer, getElem?_step_other hother ?_, hok, hprize⟩
      simp only [Event.thread?, ne_eq, Option.some.injEq]
      omega
  · intro token hfresh hapart
    rw [hworld]
    exact h.lacks token hfresh fun k hk own hown =>
      hapart k hk own (drawn?_append_of_mem hown (.proceeds (first + j)))
  · intro k hk hother
    by_cases hkj : k = j
    · subst hkj
      obtain ⟨other, hother, hcontends | ⟨hsome, hlost⟩⟩ := h.others k hk hother
      · obtain rfl : thread = other := Option.some.inj (hthread.symm.trans hother)
        rw [Thread.result?, hcontends.outcome?] at hresult
        cases hresult
      · obtain rfl : thread = other := Option.some.inj (hthread.symm.trans hother)
        exact ⟨thread', hafter, .inr ⟨hsome, hresult'.trans (hresult.symm.trans hlost)⟩⟩
    · exact h.rivals hkj hk hother id

/-- A step of a call that contends decides nothing, or the call wins, or it comes too late. -/
private theorem Contested.proceeds
    (h : Contested contest began first count steps events winner (began.run events))
    (hbegan : began.world.store = contest.before) {j : Nat} (hj : j < count)
    (hdistinct : began.Distinct first count (events ++ [.proceeds (first + j)]))
    (hloser : winner ≠ some j) {thread : Thread}
    (hthread : (began.run events).threads[first + j]? = some thread)
    (hcontends : thread.rest.Contends contest (steps - Event.stepsOf events (first + j))
      (began.drawn? (first + j) events)) :
    ∃ winner', Contested contest began first count steps (events ++ [.proceeds (first + j)])
      winner' ((began.run events).step (.proceeds (first + j))) := by
  obtain ⟨call, rest⟩ := thread
  cases rest with
  | done result => exact hcontends.elim
  | ask request next =>
    generalize hpool : began.run events = pool at h hthread ⊢
    obtain ⟨hlt, -⟩ := List.getElem?_eq_some_iff.mp hthread
    have hworld : (pool.step (.proceeds (first + j))).world = (pool.world.answer request).world := by
      rw [step_proceeds hthread]
      rfl
    have hafter : (pool.step (.proceeds (first + j))).threads[first + j]? =
        some ⟨call, next (pool.world.answer request).reply⟩ := by
      rw [step_proceeds hthread]
      exact List.getElem?_set_self hlt
    have hclock : (pool.step (.proceeds (first + j))).world.clock = contest.now := by
      rw [hworld, World.answer_world]
      exact h.clock
    have hdraws : began.drawn? (first + j) (events ++ [.proceeds (first + j)]) =
        (began.drawn? (first + j) events).or
          (request.drawn? (pool.world.answer request).reply) := by
      rw [drawn?_append_singleton, hpool, draw?_proceeds hthread]
      rfl
    have hsteps : steps - Event.stepsOf (events ++ [.proceeds (first + j)]) (first + j) =
        steps - Event.stepsOf events (first + j) - 1 := by
      simp [Event.stepsOf, Event.thread?]
      omega
    -- what the call holds is not stored, be it by the winner or before
    have hheld : ∀ token ∈ began.drawn? (first + j) events, pool.world.store.Lacks token := by
      intro token htoken
      refine h.lacks token ?_ ?_
      · exact hbegan ▸ hdistinct.fresh j hj token (drawn?_append_of_mem htoken _)
      · intro k hk own hown
        have hne : j ≠ k := fun heq => hloser (heq ▸ hk)
        exact hdistinct.apart j hj k (h.decided k hk).1 hne token (drawn?_append_of_mem htoken _)
          own (drawn?_append_of_mem hown _)
    obtain ⟨-, -, hstep⟩ := hcontends
    obtain ⟨hfree, htaken⟩ := hstep pool.world h.clock hheld
    rw [← hdraws, ← hsteps, ← hworld] at hfree htaken
    cases winner with
    | none =>
      rcases hfree (h.undecided rfl) with ⟨hstore, hgoes⟩ | ⟨hnow, hothers, answer, hok, hprize⟩
      · -- nothing is decided yet
        refine ⟨none, hclock, fun _ => hstore, fun k hk => (by cases hk), ?_, ?_⟩
        · intro token hfresh _
          rw [hstore]
          exact hfresh
        · intro k hk _
          by_cases hkj : k = j
          · subst hkj
            exact ⟨_, hafter, .inl hgoes⟩
          · exact h.rivals hkj hk (fun heq => by cases heq) id
      · -- this call wins
        refine ⟨some j, hclock, fun heq => (by cases heq), ?_, ?_, ?_⟩
        · intro k hk
          cases hk
          exact ⟨hj, hnow, _, answer, hafter, hok, hprize⟩
        · intro token hfresh hapart
          exact hothers token hfresh fun own hown =>
            hapart j rfl own (drawn?_append_of_mem hown _)
        · intro k hk hother
          have hkj : k ≠ j := fun heq => hother (heq ▸ rfl)
          exact h.rivals hkj hk (fun heq => by cases heq) fun _ => Option.some_ne_none j
    | some first' =>
      -- another one has won
      obtain ⟨hlt', hnow, other, answer, hother, hok, hprize⟩ := h.decided first' rfl
      obtain ⟨hstore, hgoes⟩ := htaken hnow
      have hne : first' ≠ j := fun heq => hloser (heq ▸ rfl)
      refine ⟨some first', hclock, fun heq => (by cases heq), ?_, ?_, ?_⟩
      · intro k hk
        cases hk
        refine ⟨hlt', hstore ▸ hnow, other, answer, getElem?_step_other hother ?_, hok, hprize⟩
        simp only [Event.thread?, ne_eq, Option.some.injEq]
        omega
      · intro token hfresh hapart
        rw [hstore]
        exact h.lacks token hfresh fun k hk own hown =>
          hapart k hk own (drawn?_append_of_mem hown _)
      · intro k hk hother
        by_cases hkj : k = j
        · subst hkj
          exact ⟨_, hafter, hgoes.imp id fun hlost => ⟨Option.some_ne_none first', hlost⟩⟩
        · exact h.rivals hkj hk hother id

/-- Whatever order the calls take their steps in, they stay contested. -/
theorem contested_run (hclock : began.world.clock = contest.now)
    (hbegan : began.world.store = contest.before)
    (hcalls : ∀ j < count, ∃ thread, began.threads[first + j]? = some thread ∧
      thread.rest.Contends contest steps none)
    (hevents : ∀ event ∈ events, ∃ j < count, event.thread? = some (first + j))
    (hdistinct : began.Distinct first count events) :
    ∃ winner, Contested contest began first count steps events winner (began.run events) := by
  induction events using List.reverseRecOn with
  | nil =>
    refine ⟨none, hclock, fun _ => hbegan, fun k hk => (by cases hk), ?_, ?_⟩
    · intro token hfresh _
      rw [run_nil, hbegan]
      exact hfresh
    · intro j hj _
      obtain ⟨thread, hthread, hcontends⟩ := hcalls j hj
      exact ⟨thread, hthread, .inl hcontends⟩
  | append_singleton events event ih =>
    obtain ⟨winner, h⟩ :=
      ih (fun e he => hevents e (List.mem_append_left _ he)) hdistinct.of_append
    obtain ⟨j, hj, hthread?⟩ := hevents event (List.mem_append_right _ List.mem_cons_self)
    obtain rfl := Event.thread?_eq_some.mp hthread?
    rw [run_append_singleton]
    by_cases hwon : winner = some j
    · obtain ⟨-, -, thread, answer, hthread, hok, -⟩ := h.decided j hwon
      exact ⟨winner, h.idle hthread hok⟩
    · obtain ⟨thread, hthread, hcontends | ⟨-, hlost⟩⟩ := h.others j hj hwon
      · exact h.proceeds hbegan hj hdistinct hwon hthread hcontends
      · exact ⟨winner, h.idle hthread hlost⟩

/-- Of the calls that begin together only their threads proceed, and each takes so many
steps or returns sooner. -/
structure Completes (before : Pool) (calls : List Call) (steps : Nat) (events : List Event) :
    Prop where
  own : ∀ event ∈ events, ∃ j < calls.length, event.thread? = some (before.threads.length + j)
  ends : ∀ j < calls.length, steps ≤ Event.stepsOf events (before.threads.length + j) ∨
    ∃ thread, ((before.run (calls.map .begins)).run events).threads[before.threads.length + j]? =
      some thread ∧ thread.result?.isSome

/-- Of the calls that begin together exactly one ends in a success, with a prize, and every
other one ends in the given failure. -/
def OneWins (before : Pool) (calls : List Call) (events : List Event) (prize : Answer → Prop)
    (lost : TeamError) : Prop :=
  ∃ winner < calls.length, ∀ j < calls.length, ∃ thread,
    ((before.run (calls.map .begins)).run events).threads[before.threads.length + j]? =
      some thread ∧
    if j = winner then ∃ answer, thread.result? = some (.ok answer) ∧ prize answer
    else thread.result? = some (.error (.error lost))

/-- Where a call that begins together with others has its thread. -/
theorem getElem?_begun {before : Pool} {calls : List Call} {j : Nat} (hj : j < calls.length) :
    (before.run (calls.map .begins)).threads[before.threads.length + j]? = some calls[j].begun := by
  rw [run_begins, List.getElem?_append_right (Nat.le_add_right _ _), Nat.add_sub_cancel_left,
    List.getElem?_map, List.getElem?_eq_getElem hj]
  rfl

/-- Calls that draw no token draw no two that are alike. -/
theorem distinct_of_tokenless {before : Pool} {calls : List Call}
    (h : ∀ call ∈ calls, call.program.Tokenless) (events : List Event) :
    (before.run (calls.map .begins)).Distinct before.threads.length calls.length events := by
  have hnone : ∀ j < calls.length,
      (before.run (calls.map .begins)).drawn? (before.threads.length + j) events = none :=
    fun j hj => drawn?_tokenless (getElem?_begun hj) (h _ (List.getElem_mem hj)) events
  constructor
  · intro j hj token htoken
    rw [hnone j hj] at htoken
    cases htoken
  · intro j hj k hk hne token htoken
    rw [hnone j hj] at htoken
    cases htoken

/-- Of calls that contend exactly one wins. -/
theorem one_wins (contest : Contest Answer) {before : Pool} {calls : List Call}
    (hclock : before.world.clock = contest.now)
    (hbefore : before.world.store = contest.before) (hsome : calls ≠ [])
    (hcontend : ∀ call ∈ calls, call.program.Contends contest steps none)
    (hcompletes : before.Completes calls steps events)
    (hdistinct : (before.run (calls.map .begins)).Distinct before.threads.length calls.length
      events) :
    before.OneWins calls events contest.prize contest.lost := by
  have hbegun := run_begins before calls
  have hcalls : ∀ j < calls.length, ∃ thread,
      (before.run (calls.map .begins)).threads[before.threads.length + j]? = some thread ∧
        thread.rest.Contends contest steps none := by
    intro j hj
    exact ⟨calls[j].begun, getElem?_begun hj, hcontend _ (List.getElem_mem hj)⟩
  obtain ⟨winner, h⟩ := contested_run (by rw [hbegun]; exact hclock) (by rw [hbegun]; exact hbefore)
    hcalls hcompletes.own hdistinct
  -- nobody contends any longer
  have hended : ∀ j < calls.length, winner ≠ some j → winner ≠ none ∧ ∃ thread,
      ((before.run (calls.map .begins)).run events).threads[before.threads.length + j]? =
        some thread ∧ thread.result? = some (.error (.error contest.lost)) := by
    intro j hj hother
    obtain ⟨thread, hthread, hcontends | ⟨hwon, hlost⟩⟩ := h.others j hj hother
    · exfalso
      rcases hcompletes.ends j hj with hsteps | ⟨thread', hthread', hreturned⟩
      · have hpos := hcontends.pos
        omega
      · obtain rfl : thread = thread' := Option.some.inj (hthread.symm.trans hthread')
        rw [Thread.result?, hcontends.outcome?] at hreturned
        cases hreturned
    · exact ⟨hwon, thread, hthread, hlost⟩
  cases winner with
  | none =>
    have hzero := (hended 0 (List.length_pos_iff.mpr hsome) (fun heq => by cases heq)).1
    exact absurd rfl hzero
  | some k =>
    obtain ⟨hk, -, thread, answer, hthread, hok, hprize⟩ := h.decided k rfl
    refine ⟨k, hk, ?_⟩
    intro j hj
    by_cases hjk : j = k
    · subst hjk
      exact ⟨thread, hthread, by rw [if_pos rfl]; exact ⟨answer, hok, hprize⟩⟩
    · have hother : some k ≠ some j := fun heq => hjk (Option.some.inj heq).symm
      obtain ⟨-, loser, hloser, hlost⟩ := hended j hj hother
      exact ⟨loser, hloser, by rw [if_neg hjk]; exact hlost⟩

end Pool

end Roster
