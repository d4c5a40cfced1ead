import Roster.Proofs.Deed.Invitations
import Roster.Proofs.Deed.Lineage

/-!
# Actions one after another

* `Episode` — an action run to its end, or a change of the surroundings between
  two actions;
* `World.after`, `World.afterAll` — the world after one episode and after
  several;
* `Rely.alone` — the company of a program that nothing comes between: what it
  saw still holds when it writes;
* `Action.run_deed` — an action leaves the tables alone, or does its deed upon
  the tables that it found;
* `World.afterAll_sound` — keys and ownership hold after any episodes.
-/

namespace Roster

/-- What happens in a world where one action ends before the next begins. -/
inductive Episode
  | acts (config : Config) (action : Action)
  | setClock (time : Instant)
  | insertUser (email name : String)
  | failSettling (fail : Bool)

/-- The world after an episode. -/
def World.after (w : World Tables) : Episode → World Tables
  | .acts config action => ((action.program config).run w).world
  | .setClock clock => { w with clock }
  | .insertUser email name => { w with store := (w.store.insertUser email name).2 }
  | .failSettling fail => { w with store := { w.store with failSettling := fail } }

/-- The world after episodes in order. -/
def World.afterAll (w : World Tables) (episodes : List Episode) : World Tables :=
  episodes.foldl World.after w

/-- Nothing comes between the steps of a program: only its own draws change the
world. -/
def Rely.alone (tables : Tables) (now : Instant) : Rely where
  inv w := w.store = tables ∧ w.clock = now
  leads v w := v.store = w.store ∧ v.clock = w.clock
  refl _ := ⟨rfl, rfl⟩
  trans h h' := ⟨h.1.trans h'.1, h.2.trans h'.2⟩
  draws _ hinv := ⟨hinv, rfl, rfl⟩

variable {tables : Tables} {now : Instant}

theorem Rely.alone_orderly (hk : tables.Keyed) : (Rely.alone tables now).Orderly where
  keyed hinv := hinv.1 ▸ hk
  evolves hlead := .of_eq (congrArg Tables.teams hlead.1.symm)
    (congrArg Tables.invitations hlead.1.symm)

/-- What a program saw when alone holds of the tables that it found. -/
theorem Rely.Seen.alone {w : World Tables} {fact : World Tables → Prop}
    (h : (Rely.alone tables now).Seen w fact) :
    ∃ random, fact ⟨tables, now, random⟩ := by
  obtain ⟨⟨store, clock, random⟩, ⟨hstore, hclock⟩, -, hfact⟩ := h
  cases hstore
  cases hclock
  exact ⟨random, hfact⟩

/-- A call leaves the tables alone, or does its deed upon the tables that it found at the
time when it was made; the deed decides what it comes to. -/
theorem Call.run_deed (call : Call) (w : World Tables) :
    (call.program.run w).world.clock = w.clock ∧
    (((call.program.run w).world.store = w.store ∧ call.Quiet (call.program.run w).result) ∨
      ∃ random, call.Deed (Rely.alone w.store w.clock) ⟨w.store, w.clock, random⟩
        (call.program.run w).world.store (call.program.run w).result) := by
  have hinv : (Rely.alone w.store w.clock).inv w := ⟨rfl, rfl⟩
  obtain ⟨hclock, hquiet | ⟨⟨store, clock, random⟩, hs, hc, -, -, hdeed⟩⟩ :=
    (call.abides hinv).run hinv
  · exact ⟨hclock, .inl hquiet⟩
  · cases hs
    cases hc
    exact ⟨hclock, .inr ⟨random, hdeed⟩⟩

/-- An action leaves the tables alone, or does its deed upon the tables that it
found at the time when it was called. -/
theorem Action.run_deed (config : Config) (action : Action) (w : World Tables) :
    ((action.program config).run w).world.clock = w.clock ∧
    (((action.program config).run w).world.store = w.store ∨
      ∃ random result, (Call.act config action).Deed (Rely.alone w.store w.clock)
        ⟨w.store, w.clock, random⟩ ((action.program config).run w).world.store result) := by
  have hrun := (Call.act config action).run_deed w
  rw [show (Call.act config action).program = (action.program config).map action.answer from rfl,
    Program.run_map] at hrun
  obtain ⟨hclock, ⟨hstore, -⟩ | ⟨random, hdeed⟩⟩ := hrun
  · exact ⟨hclock, .inl hstore⟩
  · exact ⟨hclock, .inr ⟨random, _, hdeed⟩⟩

/-- The tables have their keys and their owners. -/
def Tables.Sound (s : Tables) : Prop := s.Keyed ∧ s.Owned

theorem World.after_sound {w : World Tables} (h : w.store.Sound) (episode : Episode) :
    (w.after episode).store.Sound := by
  obtain ⟨hk, ho⟩ := h
  cases episode with
  | acts config action =>
    rcases (action.run_deed config w).2 with hsame | ⟨random, result, hdeed⟩
    · show ((action.program config).run w).world.store.Sound
      rw [hsame]
      exact ⟨hk, ho⟩
    · have horderly : (Rely.alone w.store w.clock).Orderly := Rely.alone_orderly hk
      have howned : ∀ {v : World Tables}, (Rely.alone w.store w.clock).inv v → v.store.Owned :=
        fun hinv => hinv.1 ▸ ho
      have hinv : (Rely.alone w.store w.clock).inv ⟨w.store, w.clock, random⟩ := ⟨rfl, rfl⟩
      exact ⟨hdeed.keyed horderly hinv, hdeed.owned horderly howned hinv⟩
  | setClock clock => exact ⟨hk, ho⟩
  | insertUser email name => exact ⟨hk.of_eq rfl rfl rfl rfl rfl, ho.of_eq rfl rfl⟩
  | failSettling fail => exact ⟨hk.of_eq rfl rfl rfl rfl rfl, ho.of_eq rfl rfl⟩

/-- Keys and ownership hold after any episodes. -/
theorem World.afterAll_sound {w : World Tables} (h : w.store.Sound) (episodes : List Episode) :
    (w.afterAll episodes).store.Sound := by
  induction episodes generalizing w with
  | nil => exact h
  | cons episode rest ih => exact ih (World.after_sound h episode)

end Roster
