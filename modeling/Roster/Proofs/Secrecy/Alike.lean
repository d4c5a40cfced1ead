import Roster.Proofs.Program.Laws
import Roster.Proofs.Secrecy.Conceal

/-!
# Programs that differ in tokens only

* `Program.digests` — the digests under which a run asks the store to keep
  invitations, in order: those of the tokens that it issues;
* `Program.Alike` — two programs run alike in alike worlds, as long as the
  digests that they issue correspond in order: they fail alike or give related
  results, write the same log lines and leave alike stores. The random sources
  of the two worlds have nothing in common;
* `Program.Alike.bind` and one rule for each kind of request;
* `Program.Blind` — a program that is alike itself and gives the same result.
-/

namespace Roster

/-! ## Issued digests -/

/-- The digest under which a call asks to keep an invitation. -/
def StoreCall.digests : {α : Type} → StoreCall α → List String
  | _, .createInvitation draft => [draft.tokenHash]
  | _, _ => []

/-- The digests under which work done on tables asks to keep invitations. -/
def Work.digests {α : Type} (time : Instant) : Work α → Tables → List String
  | .done _, _ => []
  | .call c next, s =>
    let outcome := Store.perform c s
    c.digests ++ match outcome.result with
      | .ok reply => (next reply).digests time outcome.store
      | .error _ => []
  | .clock next, s => (next time).digests time s

/-- The digests that the answer to one request issues. -/
def World.digests (w : World Tables) : {β : Type} → Request β → List String
  | _, .store call => call.digests
  | _, .atomically unit => unit.work.digests w.clock w.store
  | _, _ => []

namespace Program

variable {α β : Type}

/-- The digests under which a run asks to keep invitations. -/
def digests : Program α → World Tables → List String
  | .done _, _ => []
  | .ask request next, w =>
    let turn := w.answer request
    w.digests request ++ (next turn.reply).digests turn.world

theorem digests_bind (program : Program α) (f : α → Program β) (w : World Tables) :
    (program >>= f).digests w = program.digests w ++
      match (program.run w).result with
      | .ok a => (f a).digests (program.run w).world
      | .error _ => [] := by
  change (program.bind f).digests w = _
  induction program generalizing w with
  | done result => cases result <;> rfl
  | ask request next ih => simp only [bind, digests, ih, run, List.append_assoc]

theorem digests_ofWork (work : Work α) (w : World Tables) :
    (ofWork work).digests w = work.digests w.clock w.store := by
  induction work generalizing w with
  | done result => cases result <;> rfl
  | call c next ih =>
    cases h : (Store.perform c w.store).result with
    | ok reply =>
      simp only [ofWork, digests, World.digests, World.answer, World.take, Work.digests, h, ih]
    | error e =>
      simp only [ofWork, digests, World.digests, World.answer, World.take, Work.digests, h]
      rfl
  | clock next ih => simp only [ofWork, digests, World.digests, World.answer, Work.digests, ih,
      List.nil_append]

theorem digests_atomically (unit : UnitOfWork α) (w : World Tables) :
    (atomically unit).digests w = unit.work.digests w.clock w.store := by
  have hrest : ∀ (result : Except TeamError α) (v : World Tables),
      (ofExcept result).digests v = [] := fun result v => by cases result <;> rfl
  simp only [atomically, digests, World.digests, hrest, List.append_nil]

end Program

/-- The entries of two lists correspond in order, as far as the shorter one
goes. -/
def Coupled (K : String → String → Prop) (l l' : List String) : Prop :=
  ∀ pair ∈ l.zip l', K pair.1 pair.2

section

variable {K : String → String → Prop} {l l' r r' : List String}

theorem Coupled.left (h : Coupled K (l ++ r) (l' ++ r')) : Coupled K l l' := by
  intro pair hpair
  refine h pair ?_
  clear h
  induction l generalizing l' with
  | nil => cases hpair
  | cons x xs ih =>
    cases l' with
    | nil => cases hpair
    | cons y ys =>
      rw [List.zip_cons_cons, List.mem_cons] at hpair
      exact List.mem_cons.mpr (hpair.imp id ih)

theorem Coupled.right (h : Coupled K (l ++ r) (l' ++ r')) (hlength : l.length = l'.length) :
    Coupled K r r' := by
  intro pair hpair
  refine h pair ?_
  rw [List.zip_append hlength]
  exact List.mem_append_right _ hpair

end

/-! ## Alike runs -/

/-- Two runs came to related results, wrote the same and left alike worlds. -/
structure Run.Alike {α : Type} (K : String → String → Prop) (R : α → α → Prop)
    (x y : Run Tables α) : Prop where
  result : Agree R x.result y.result
  log : x.log = y.log
  store : x.world.store.Alike K y.world.store
  clock : x.world.clock = y.world.clock

namespace Program

/-- In alike worlds the programs run alike and issue as many digests, if these
correspond. -/
def Alike {α : Type} (K : String → String → Prop) (R : α → α → Prop) (p q : Program α) : Prop :=
  ∀ w v : World Tables, w.store.Alike K v.store → w.clock = v.clock →
    Coupled K (p.digests w) (q.digests v) →
    (p.run w).Alike K R (q.run v) ∧ (p.digests w).length = (q.digests v).length

/-- The program shows no difference between alike worlds. -/
abbrev Blind {α : Type} (K : String → String → Prop) (p : Program α) : Prop :=
  p.Alike K Eq p

variable {α β : Type} {K : String → String → Prop} {R : α → α → Prop} {S : β → β → Prop}

theorem alike_pure {a b : α} (h : R a b) : (pure a : Program α).Alike K R (pure b) :=
  fun _ _ hstore hclock _ => ⟨⟨.ok h, rfl, hstore, hclock⟩, rfl⟩

theorem alike_refuse (e : TeamError) : (refuse e : Program α).Alike K R (refuse e) :=
  fun _ _ hstore hclock _ => ⟨⟨.error _, rfl, hstore, hclock⟩, rfl⟩

theorem blind_pure (a : α) : (pure a : Program α).Blind K := alike_pure rfl

/-- Programs whose parts are alike are alike. -/
theorem Alike.bind {p q : Program β} {f g : β → Program α} (hfirst : p.Alike K S q)
    (hrest : ∀ a b, S a b → (f a).Alike K R (g b)) : (p >>= f).Alike K R (q >>= g) := by
  intro w v hstore hclock hcoupled
  rw [digests_bind, digests_bind] at hcoupled ⊢
  rw [run_bind, run_bind]
  obtain ⟨⟨hresult, hlog, hstore', hclock'⟩, hlength⟩ := hfirst w v hstore hclock hcoupled.left
  have hcoupled' := hcoupled.right hlength
  generalize p.run w = x at *
  generalize q.run v = y at *
  obtain ⟨result, log, w'⟩ := x
  obtain ⟨result', log', v'⟩ := y
  cases hresult with
  | error e => exact ⟨⟨.error e, hlog, hstore', hclock'⟩, by simpa using hlength⟩
  | ok hab =>
    obtain ⟨hrun, hlength'⟩ := hrest _ _ hab w' v' hstore' hclock' hcoupled'
    refine ⟨⟨hrun.result, ?_, hrun.store, hrun.clock⟩, ?_⟩
    · exact congrArg₂ (· ++ ·) hlog hrun.log
    · simp only [List.length_append, hlength, hlength']

/-- After a blind part the programs go on from the same value. -/
theorem Blind.bind {p : Program β} {f g : β → Program α} (hfirst : p.Blind K)
    (hrest : ∀ a, (f a).Alike K R (g a)) : (p >>= f).Alike K R (p >>= g) := by
  apply Alike.bind hfirst
  rintro a _ rfl
  exact hrest a

/-! ### One rule for each kind of request -/

/-- Two calls that alike stores answer alike. -/
theorem alike_ask {call call' : StoreCall β} {next next' : Except TeamError β → Program α}
    (hlength : call.digests.length = call'.digests.length)
    (hanswer : ∀ s t : Tables, s.Alike K t → Coupled K call.digests call'.digests →
      Agree (fun x y => S x.1 y.1 ∧ x.2.Alike K y.2) (s.perform call) (t.perform call'))
    (hnext : ∀ r r', Agree S r r' → (next r).Alike K R (next' r')) :
    (Program.ask (.store call) next).Alike K R (.ask (.store call') next') := by
  intro w v hstore hclock hcoupled
  have hperform := hanswer _ _ hstore hcoupled.left
  have hrest := hcoupled.right hlength
  generalize hs : w.store.perform call = x at hperform
  generalize ht : v.store.perform call' = y at hperform
  simp only [digests, run, World.digests, List.length_append, hlength]
  cases hperform with
  | error e =>
    rw [answer_error hs, answer_error ht] at hrest ⊢
    obtain ⟨hrun, hlength'⟩ := hnext _ _ (.error e) w v hstore hclock hrest
    exact ⟨hrun, congrArg _ hlength'⟩
  | @ok x y hxy =>
    rw [answer_ok hs, answer_ok ht] at hrest ⊢
    obtain ⟨hrun, hlength'⟩ := hnext _ _ (.ok hxy.1) { w with store := x.2 }
      { v with store := y.2 } hxy.2 hclock hrest
    exact ⟨hrun, congrArg _ hlength'⟩

/-- A call that mentions no digest. -/
theorem alike_ask_blind {call : StoreCall β} {next next' : Except TeamError β → Program α}
    (hblind : call.isBlind = true)
    (hnext : ∀ r r', Agree (fun a b => call.conceal a = call.conceal b) r r' →
      (next r).Alike K R (next' r')) :
    (Program.ask (.store call) next).Alike K R (.ask (.store call) next') :=
  alike_ask rfl (fun _ _ hstore _ => hstore.perform hblind) hnext

/-- The end of a call in a sequence. -/
theorem alike_ofExcept {r r' : Except TeamError α} (h : Agree R r r') :
    (ofExcept r).Alike K R (ofExcept r') := by
  cases h with
  | error e => exact alike_refuse e
  | ok hab => exact alike_pure hab

/-- Two calls in sequences that alike stores answer alike. -/
theorem alike_perform {call call' : StoreCall β}
    (hlength : call.digests.length = call'.digests.length)
    (hanswer : ∀ s t : Tables, s.Alike K t → Coupled K call.digests call'.digests →
      Agree (fun x y => S x.1 y.1 ∧ x.2.Alike K y.2) (s.perform call) (t.perform call')) :
    (ofWork (Work.perform call)).Alike K S (ofWork (Work.perform call')) := by
  rw [← bind_pure (ofWork (Work.perform call)), ← bind_pure (ofWork (Work.perform call')),
    ofWork_perform_bind, ofWork_perform_bind]
  apply alike_ask hlength hanswer
  intro r r' h
  simp only [bind_pure]
  exact alike_ofExcept h

theorem alike_perform_blind {call : StoreCall β} (hblind : call.isBlind = true) :
    (ofWork (Work.perform call)).Alike K (fun a b => call.conceal a = call.conceal b)
      (ofWork (Work.perform call)) :=
  alike_perform rfl fun _ _ hstore _ => hstore.perform hblind

/-- A call that mentions no digest and whose reply holds none. -/
theorem blind_perform {call : StoreCall β} (hblind : call.isBlind = true)
    (hplain : ∀ reply, call.conceal reply = reply) : (ofWork (Work.perform call)).Blind K := by
  simpa only [Blind, hplain] using alike_perform_blind (K := K) hblind

/-- An invitation under digests that correspond. -/
theorem alike_createInvitation (hK : Relator.BiUnique K) (draft : InvitationDraft)
    (d d' : String) :
    (ofWork (Work.perform (.createInvitation { draft with tokenHash := d }))).Alike K
      (fun i j => i.conceal = j.conceal ∧ K d d')
      (ofWork (Work.perform (.createInvitation { draft with tokenHash := d' }))) := by
  refine alike_perform rfl ?_
  intro s t hstore hcoupled
  have hd : K d d' := hcoupled (d, d') List.mem_cons_self
  exact (hstore.createInvitation hK hd draft).imp fun _ _ h => ⟨⟨h.1, hd⟩, h.2⟩

/-- Corresponding digests that are looked up. -/
theorem alike_findInvitationByToken (hK : Relator.BiUnique K) {d d' : String} (hd : K d d') :
    (ofWork (Work.perform (.findInvitationByToken d))).Alike K
      (fun a b => a.map (·.conceal) = b.map (·.conceal))
      (ofWork (Work.perform (.findInvitationByToken d'))) :=
  alike_perform rfl fun _ _ hstore _ => .ok ⟨hstore.findInvitationByToken hK hd, hstore⟩

theorem blind_now : (ofWork Work.now).Blind K :=
  fun _ _ hstore hclock _ => ⟨⟨.ok hclock, rfl, hstore, hclock⟩, rfl⟩

theorem blind_log (line : LogLine) : (log line).Blind K :=
  fun _ _ hstore hclock _ => ⟨⟨.ok rfl, rfl, hstore, hclock⟩, rfl⟩

theorem blind_userByEmail (email : String) : (userByEmail email).Blind K := by
  intro _ _ hstore hclock _
  have husers := congrArg (Tables.findUserByEmail · email) hstore.concealed
  exact ⟨⟨.ok husers, rfl, hstore, hclock⟩, rfl⟩

/-- Any two tokens may be drawn. -/
theorem alike_token (length : Nat) :
    (token length).Alike K (fun _ _ => True) (token length) :=
  fun _ _ hstore hclock _ => ⟨⟨.ok trivial, rfl, hstore, hclock⟩, rfl⟩

theorem blind_later (now : Instant) (duration : Duration) : (later now duration).Blind K := by
  unfold later
  split
  · exact blind_pure _
  · exact fun _ _ hstore hclock _ => ⟨⟨.error _, rfl, hstore, hclock⟩, rfl⟩

theorem blind_require (condition : Bool) (e : TeamError) :
    (ofWork (Work.require condition e)).Blind K := by
  cases condition
  · exact alike_refuse e
  · exact blind_pure ()

theorem blind_ofInput (input : Except InvalidInput α) : (ofWork (Work.ofInput input)).Blind K := by
  cases input with
  | error reason => exact alike_refuse _
  | ok a => exact blind_pure a

theorem blind_found (e : TeamError) (found : Option α) : (ofWork (Work.found e found)).Blind K := by
  cases found with
  | none => exact alike_refuse e
  | some a => exact blind_pure a

/-- What is found is found in both, without its digest. -/
theorem alike_found (e : TeamError) {found found' : Option Invitation}
    (h : found.map (·.conceal) = found'.map (·.conceal)) :
    (ofWork (Work.found e found)).Alike K (fun i j => i.conceal = j.conceal)
      (ofWork (Work.found e found')) := by
  cases found with
  | none =>
    cases found' with
    | none => exact alike_refuse e
    | some j => cases h
  | some i =>
    cases found' with
    | none => cases h
    | some j => exact alike_pure (Option.some.inj h)

/-- Units of work whose work is alike are done alike, and undone alike. -/
theorem alike_atomically {unit unit' : UnitOfWork β}
    (h : (ofWork unit.work).Alike K S (ofWork unit'.work)) :
    (atomically unit).Alike K S (atomically unit') := by
  intro w v hstore hclock hcoupled
  simp only [digests_atomically, ← digests_ofWork] at hcoupled ⊢
  obtain ⟨hrun, hlength⟩ := h w v hstore hclock hcoupled
  refine ⟨?_, hlength⟩
  simp only [run_ofWork, run_atomically, Work.runAtomically] at hrun ⊢
  generalize unit.work.run w.clock w.store = x at hrun ⊢
  generalize unit'.work.run v.clock v.store = y at hrun ⊢
  obtain ⟨result, log, s⟩ := x
  obtain ⟨result', log', t⟩ := y
  cases result with
  | ok a =>
    cases result' with
    | ok b => exact hrun
    | error e => exact absurd hrun.result nofun
  | error e =>
    cases result' with
    | ok b => exact absurd hrun.result nofun
    | error e' => exact ⟨hrun.result, hrun.log, hstore, hclock⟩

theorem blind_atomically {unit : UnitOfWork α} (h : (ofWork unit.work).Blind K) :
    (atomically unit).Blind K :=
  alike_atomically h

end Program

end Roster
