import Roster.Proofs.Capacity
import Roster.Proofs.Log.Text
import Roster.Proofs.Transcript

/-!
# The log lines of programs

What a program writes to the log follows from what it asks and how it ends: a warning for each
expiry whose write failed, and then, if it succeeds, a report.

* `Exchange.lostExpiry?` — the warning that an exchange calls for;
* `Work.Sparing` — work that writes down no expiry;
* `Program.Tells`, `Program.Silent` — a program that logs the warnings and then a report of its
  result, and one that reports nothing. One rule for each way to build programs opens them;
* `Program.Mute` — a program that logs nothing, not even warnings, such as work
  (`Program.mute_ofWork`);
* `Program.Yields` — what is known of the result, whatever the answers were.
-/

namespace Roster

variable {α β : Type}

/-- A call that writes down the expiry of an invitation. -/
def StoreCall.marksExpired : StoreCall α → Bool
  | .settleInvitation _ .expired _ => true
  | _ => false

/-- The warning for an exchange, if it was to write down an expiry and failed. -/
def Exchange.lostExpiry? : Exchange → Option LogLine
  | ⟨.store (.settleInvitation invitation .expired _), .error e⟩ =>
    some (.expiryNotWritten invitation e)
  | _ => none

/-- A call that writes down no expiry calls for no warning. -/
theorem World.lostExpiry_store {call : StoreCall α} (h : call.marksExpired = false)
    (w : World Tables) : (w.exchange (.store call)).lostExpiry? = none := by
  cases call with
  | settleInvitation invitation status now =>
    cases status with
    | expired => cases h
    | _ => rfl
  | _ => rfl

/-! ## Work that notices no expiry -/

namespace Work

/-- The work writes down no expiry. -/
def Sparing : Work α → Prop
  | .done _ => True
  | .call c next => c.marksExpired = false ∧ ∀ reply, (next reply).Sparing
  | .clock next => ∀ now, (next now).Sparing

variable {work : Work α} {f : α → Work β}

@[simp]
theorem sparing_pure (a : α) : (pure a : Work α).Sparing := trivial

@[simp]
theorem sparing_refuse (e : TeamError) : (refuse e : Work α).Sparing := trivial

@[simp]
theorem sparing_now : now.Sparing := fun _ => trivial

theorem sparing_perform {call : StoreCall α} (h : call.marksExpired = false) :
    (perform call).Sparing := ⟨h, fun _ => trivial⟩

theorem Sparing.bind (h : work.Sparing) (hf : ∀ a, (f a).Sparing) : (work >>= f).Sparing := by
  change (work.bind f).Sparing
  induction work with
  | done result =>
    cases result with
    | ok a => exact hf a
    | error e => trivial
  | call c next ih => exact ⟨h.1, fun reply => ih reply (h.2 reply)⟩
  | clock next ih => exact fun now => ih now (h now)

@[simp]
theorem sparing_require (condition : Bool) (e : TeamError) : (require condition e).Sparing := by
  cases condition <;> trivial

@[simp]
theorem sparing_found (e : TeamError) (found : Option α) : (Work.found e found).Sparing := by
  cases found <;> trivial

@[simp]
theorem sparing_ofInput (input : Except InvalidInput α) : (ofInput input).Sparing := by
  cases input <;> trivial

end Work

/-! ## What programs tell -/

namespace Program

/-- Whatever answers it gets, the program logs the warnings for the expiries that it could not
write down, and then what it reports of its result. -/
def Tells (program : Program α) (report : α → List LogLine) : Prop :=
  ∀ exchanges result, program.Transcript exchanges result →
    exchanges.flatMap Exchange.lines = exchanges.filterMap Exchange.lostExpiry? ++
      match result with
      | .ok a => report a
      | .error _ => []

/-- A program that reports nothing. -/
def Silent (program : Program α) : Prop :=
  program.Tells fun _ => []

variable {program : Program α} {f : α → Program β} {report : β → List LogLine}

theorem tells_refuse (e : TeamError) : (refuse e).Tells report := by
  intro exchanges result h
  cases h
  rfl

theorem tells_pure {a : β} (ha : report a = []) : (pure a : Program β).Tells report := by
  intro exchanges result h
  cases h
  exact ha.symm

/-- What is told is told by the part that reports, if the part before it is silent. -/
theorem Tells.bind (h : program.Silent) (hf : ∀ a, (f a).Tells report) :
    (program >>= f).Tells report := by
  intro exchanges result htranscript
  rcases htranscript.of_bind with ⟨e, hfirst, rfl⟩ | ⟨a, early, late, hfirst, hrest, rfl⟩
  · exact h _ _ hfirst
  · have hearly := h _ _ hfirst
    rw [List.append_nil] at hearly
    rw [List.flatMap_append, List.filterMap_append, hearly, hf a _ _ hrest, List.append_assoc]

/-- A request that logs nothing and calls for no warning. -/
theorem tells_ask {γ : Type} {request : Request γ} {next : γ → Program β}
    (hrequest : ∀ w : World Tables, (w.exchange request).lines = [] ∧
      (w.exchange request).lostExpiry? = none)
    (h : ∀ reply, (next reply).Tells report) : (ask request next).Tells report := by
  intro exchanges result htranscript
  cases htranscript with
  | ask w hrest =>
    rw [List.flatMap_cons, List.filterMap_cons_none (hrequest w).2, (hrequest w).1]
    exact h _ _ _ hrest

theorem tells_log (line : LogLine) : (log line).Tells fun _ => [line] := by
  intro exchanges result h
  cases h with
  | ask w hrest =>
    cases hrest
    rfl

/-- A report is told after the change that it is about. -/
theorem tells_report {line : LogLine} {a : β} (ha : report a = [line]) :
    (log line >>= fun _ => pure a).Tells report := by
  intro exchanges result h
  cases h with
  | ask w hrest =>
    cases hrest
    exact ha.symm

/-! ## Silent programs -/

theorem silent_ofExcept (result : Except TeamError α) : (ofExcept result).Silent := by
  cases result with
  | ok a => exact tells_pure rfl
  | error e => exact tells_refuse e

/-- Work that writes down no expiry calls for no warning. -/
theorem silent_ofWork {work : Work α} (h : work.Sparing) : (ofWork work).Silent := by
  induction work with
  | done result => exact silent_ofExcept result
  | call c next ih =>
    unfold Silent ofWork
    refine tells_ask (fun w => ⟨rfl, w.lostExpiry_store h.1⟩) fun reply => ?_
    cases reply with
    | ok a => exact ih a (h.2 a)
    | error e => exact tells_refuse e
  | clock next ih => exact tells_ask (fun _ => ⟨rfl, rfl⟩) fun now => ih now (h now)

theorem tells_work {work : Work α} (h : work.Sparing) (hf : ∀ a, (f a).Tells report) :
    (ofWork work >>= f).Tells report :=
  .bind (silent_ofWork h) hf

theorem silent_userByEmail (email : String) : (userByEmail email).Silent :=
  tells_ask (fun _ => ⟨rfl, rfl⟩) fun _ => tells_pure rfl

theorem silent_token (length : Nat) : (token length).Silent :=
  tells_ask (fun _ => ⟨rfl, rfl⟩) fun _ => tells_pure rfl

theorem silent_atomically (unit : UnitOfWork α) : (atomically unit).Silent :=
  tells_ask (fun _ => ⟨rfl, rfl⟩) silent_ofExcept

theorem silent_later (now : Instant) (duration : Duration) : (later now duration).Silent := by
  unfold later
  split
  · exact tells_pure rfl
  · intro exchanges result h
    cases h
    rfl

/-- An expiry whose write fails is warned of, and nothing else is said of it. -/
theorem silent_expireLazily (invitation : Invitation) : (expireLazily invitation).Silent := by
  refine Tells.bind (silent_ofWork Work.sparing_now) fun now => ?_
  intro exchanges result h
  cases h with
  | ask w hrest =>
    cases hreply : (w.answer (.store (.settleInvitation invitation.id .expired now))).reply with
    | ok settled =>
      rw [hreply] at hrest
      cases hrest
      simp only [World.exchange, hreply]
      rfl
    | error e =>
      rw [hreply] at hrest
      cases hrest with
      | ask w' hrest =>
        cases hrest
        simp only [World.exchange, hreply]
        rfl

/-! ## Programs without log lines -/

/-- Whatever answers it gets, the program logs nothing. -/
def Mute (program : Program α) : Prop :=
  ∀ exchanges result, program.Transcript exchanges result →
    exchanges.flatMap Exchange.lines = []

theorem mute_done (result : Except Failure α) : (done result).Mute := by
  intro exchanges result' h
  cases h
  rfl

theorem mute_ask {γ : Type} {request : Request γ} {next : γ → Program α}
    (hrequest : ∀ w : World Tables, (w.exchange request).lines = [])
    (h : ∀ reply, (next reply).Mute) : (ask request next).Mute := by
  intro exchanges result htranscript
  cases htranscript with
  | ask w hrest =>
    rw [List.flatMap_cons, hrequest, h _ _ _ hrest, List.append_nil]

theorem Mute.bind (h : program.Mute) (hf : ∀ a, (f a).Mute) : (program >>= f).Mute := by
  intro exchanges result htranscript
  rcases htranscript.of_bind with ⟨e, hfirst, -⟩ | ⟨a, early, late, hfirst, hrest, rfl⟩
  · exact h _ _ hfirst
  · rw [List.flatMap_append, h _ _ hfirst, hf a _ _ hrest, List.append_nil]

/-- Work logs nothing, whatever it writes. -/
theorem mute_ofWork (work : Work α) : (ofWork work).Mute := by
  induction work with
  | done result => cases result <;> exact mute_done _
  | call c next ih =>
    unfold ofWork
    refine mute_ask (fun _ => rfl) fun reply => ?_
    cases reply with
    | ok a => exact ih a
    | error e => exact mute_done _
  | clock next ih => exact mute_ask (fun _ => rfl) ih

/-! ## What programs give -/

/-- Whatever answers it gets, what the program gives has a property. -/
def Yields (program : Program α) (post : α → Prop) : Prop :=
  ∀ exchanges a, program.Transcript exchanges (.ok a) → post a

theorem yields_pure {post : α → Prop} {a : α} (h : post a) : (pure a : Program α).Yields post := by
  intro exchanges a' htranscript
  cases htranscript
  exact h

theorem Yields.bind {pre : α → Prop} {post : β → Prop} (h : program.Yields pre)
    (hf : ∀ a, pre a → (f a).Yields post) : (program >>= f).Yields post := by
  intro exchanges b htranscript
  rcases htranscript.of_bind with ⟨e, -, herror⟩ | ⟨a, early, late, hfirst, hrest, -⟩
  · cases herror
  · exact hf a (h early a hfirst) late b hrest

/-- Nothing needs to be known of a part whose result does not matter. -/
theorem yields_bind {post : β → Prop} (hf : ∀ a, (f a).Yields post) :
    (program >>= f).Yields post := by
  have hany : program.Yields fun _ => True := fun _ _ _ => trivial
  exact hany.bind fun a _ => hf a

/-- A team is founded with the slug of its draft. -/
theorem yields_found (draft : TeamDraft) :
    (atomically (.found draft)).Yields fun team => team.slug = draft.slug := by
  intro exchanges team h
  cases h with
  | ask w hrest =>
    cases hreply : (w.answer (.atomically (.found draft))).reply with
    | error e =>
      rw [hreply] at hrest
      cases hrest
    | ok founded =>
      rw [hreply] at hrest
      cases hrest
      obtain ⟨_, _, hcreate, -⟩ := UnitOfWork.foundTeam_gives.mp (World.answer_atomically_ok hreply)
      obtain ⟨-, rfl, -⟩ := Tables.createTeam_ok hcreate
      rfl

end Program

end Roster
