import Roster.Proofs.History
import Roster.Proofs.Ledger

/-!
# Updates that overlap

An update reads the whole row of a team in its first step and writes the whole row
back in its last, with the given fields changed. In between another update may write
the row.

* `UpdateTeam.Holds` — an update that has read the team writes that row back, or
  fails, whatever others do meanwhile;
* `Pool.update_written` — so the row that is written is the one that was there at the
  first step of the call;
* `Pool.Updating` — only updates are under way: the tables only change when one of
  them returns (`Pool.Updating.store_eq`);
* `Pool.later_update_wins` — if the second of two to return read the team after the
  first one had written it, the row has the values of both; if it read before, the
  values of the first are gone;
* `Pool.update_overwritten` — and that happens.
-/

namespace Roster

/-! ## Fields -/

namespace UpdateTeam

/-- The row has the values that the update gives. -/
structure CarriedBy (input : UpdateTeam) (row : Team) : Prop where
  name : ∀ given, input.name = some given →
    TeamName.validate given = .ok row.name ∧ row.slug = slugify row.name
  description : ∀ given, input.description = some given → row.description = given
  visibility : ∀ given, input.visibility = some given → row.visibility = given
  memberLimit : ∀ given, input.memberLimit = some given → row.memberLimit = given

/-- Two rows agree in the fields that the update gives. -/
structure SameFields (input : UpdateTeam) (row row' : Team) : Prop where
  name : input.name ≠ none → row'.name = row.name ∧ row'.slug = row.slug
  description : input.description ≠ none → row'.description = row.description
  visibility : input.visibility ≠ none → row'.visibility = row.visibility
  memberLimit : input.memberLimit ≠ none → row'.memberLimit = row.memberLimit

/-- No field is given by both updates. -/
structure Disjoint (first second : UpdateTeam) : Prop where
  name : first.name = none ∨ second.name = none
  description : first.description = none ∨ second.description = none
  visibility : first.visibility = none ∨ second.visibility = none
  memberLimit : first.memberLimit = none ∨ second.memberLimit = none

variable {first second input : UpdateTeam} {name : Option String} {row row' : Team} {now : Instant}

/-- The row that an update writes has the values that the update gives. -/
theorem carriedBy_revise
    (hnamed : Option.Rel (fun given checked => TeamName.validate given = .ok checked)
      input.name name) (row : Team) (now : Instant) :
    input.CarriedBy (input.revise name row now) := by
  obtain ⟨hname, hslug, hdescription, hvisibility, hlimit⟩ := input.revise_fields name row now
  constructor
  · intro given hgiven
    rw [hgiven] at hnamed
    cases hnamed with
    | some hvalid =>
      rw [hslug, hname]
      exact ⟨hvalid, rfl⟩
  · intro given hgiven
    rw [hdescription, hgiven, Option.getD_some]
  · intro given hgiven
    rw [hvisibility, hgiven, Option.getD_some]
  · intro given hgiven
    rw [hlimit, hgiven, Option.getD_some]

/-- An update leaves the fields of a disjoint one as they were in the row that it
read. -/
theorem Disjoint.sameFields_revise (h : first.Disjoint second)
    (hnamed : Option.Rel (fun given checked => TeamName.validate given = .ok checked)
      second.name name) (row : Team) (now : Instant) :
    first.SameFields row (second.revise name row now) := by
  obtain ⟨hname, hslug, hdescription, hvisibility, hlimit⟩ := second.revise_fields name row now
  constructor
  · intro hgiven
    rw [h.name.resolve_left hgiven] at hnamed
    cases hnamed
    exact ⟨hname, hslug⟩
  · intro hgiven
    rw [hdescription, h.description.resolve_left hgiven, Option.getD_none]
  · intro hgiven
    rw [hvisibility, h.visibility.resolve_left hgiven, Option.getD_none]
  · intro hgiven
    rw [hlimit, h.memberLimit.resolve_left hgiven, Option.getD_none]

theorem CarriedBy.of_sameFields (h : input.CarriedBy row) (hsame : input.SameFields row row') :
    input.CarriedBy row' := by
  constructor
  · intro given hgiven
    obtain ⟨hname, hslug⟩ := hsame.name (hgiven ▸ Option.some_ne_none given)
    rw [hname, hslug]
    exact h.name given hgiven
  · intro given hgiven
    exact (hsame.description (hgiven ▸ Option.some_ne_none given)).trans (h.description given hgiven)
  · intro given hgiven
    exact (hsame.visibility (hgiven ▸ Option.some_ne_none given)).trans (h.visibility given hgiven)
  · intro given hgiven
    exact (hsame.memberLimit (hgiven ▸ Option.some_ne_none given)).trans (h.memberLimit given hgiven)

/-! ## One update among others -/

/-- Upon the world `w` the team that was found is written back with the given fields
changed. -/
def WritesBack (input : UpdateTeam) (found : Option Team) (w : World Tables) (s : Tables)
    (result : Except Failure Answer) : Prop :=
  ∃ before name now team, found = some before ∧
    Option.Rel (fun given checked => TeamName.validate given = .ok checked) input.name name ∧
    w.store.updateTeam (input.revise name before now) = .ok (team, s) ∧ result = .ok (.team team)

end UpdateTeam

/-- A company of which nothing is known. -/
def Rely.anybody : Rely where
  inv _ := True
  leads _ _ := True
  refl _ := trivial
  trans _ _ := trivial
  draws _ _ := ⟨trivial, trivial⟩

/-- What is left of an update that found the team, or did not find it: whatever others
do, it writes that row back or comes to a failure. -/
def UpdateTeam.Holds (input : UpdateTeam) (found : Option Team) (program : Program Answer) : Prop :=
  ∃ w, program.Abides Rely.anybody (input.WritesBack found)
    (fun _ result => ∃ failure, result = .error failure) w

/-- The thread of a call that has just begun. -/
def Call.begun (call : Call) : Thread := ⟨call, call.program⟩

namespace UpdateTeam

open Program

variable {input : UpdateTeam} {found : Option Team} {thread : Thread}

/-- The first step of an update reads the team. -/
theorem holds_first (config : Config) (input : UpdateTeam) (w : World Tables) :
    (Call.act config (.updateTeam input)).begun.result? = none ∧
      ((Call.act config (.updateTeam input)).begun.step w).2 = w ∧
      input.Holds (w.store.findTeam input.teamId)
        ((Call.act config (.updateTeam input)).begun.step w).1.rest := by
  have hprogram : (Call.act config (.updateTeam input)).program =
      .ask (.store (.findTeam input.teamId)) fun reply =>
        (ofExcept reply >>= fun found =>
          ofWork (Work.found (.teamNotFound input.teamId) found) >>= input.amend).map .team := by
    change (updateTeam input).map Answer.team = _
    rw [updateTeam_eq, requireTeam, ofWork_bind, bind_assoc, ofWork_perform_bind]
    rfl
  have hstep : (Call.act config (.updateTeam input)).begun.step w =
      (⟨.act config (.updateTeam input),
        (ofWork (Work.found (.teamNotFound input.teamId) (w.store.findTeam input.teamId)) >>=
          input.amend).map .team⟩, w) := by
    simp only [Call.begun, hprogram, Thread.step]
    rfl
  have hpending : (Call.act config (.updateTeam input)).begun.result? = none := by
    simp only [Call.begun, hprogram, Thread.result?, outcome?]
  rw [hstep]
  refine ⟨hpending, rfl, w, Abides.map ?_⟩
  have hrefuse : ∀ e seen, (refuse e : Program Team).Knowing Rely.anybody
      (fun w s r => input.WritesBack (w.store.findTeam input.teamId) w s (r.map Answer.team))
      (fun _ r => ∃ failure, r.map Answer.team = .error failure) seen :=
    fun e seen => knowing_refuse fun _ _ _ => ⟨.error e, rfl⟩
  have hknowing : (ofWork (Work.found (.teamNotFound input.teamId)
      (w.store.findTeam input.teamId)) >>= input.amend).Knowing Rely.anybody
      (fun w' s r => input.WritesBack (w.store.findTeam input.teamId) w' s (r.map Answer.team))
      (fun _ r => ∃ failure, r.map Answer.team = .error failure) [] := by
    refine knowing_found (fun _ => hrefuse _ _) ?_
    intro before hbefore
    refine knowing_amend hrefuse ?_
    intro w' name now team s _ _ _ hnamed _ hwrite
    exact ⟨before, name, now, team, hbefore, hnamed, hwrite, rfl⟩
  exact hknowing.abides trivial

/-- A step of an update that has read the team leaves the tables alone, or it writes the
row back and returns. -/
theorem Holds.step (h : input.Holds found thread.rest) (hnone : thread.result? = none)
    (w : World Tables) :
    ((thread.step w).2.store = w.store ∧ input.Holds found (thread.step w).1.rest) ∨
      ∃ result, (thread.step w).1.result? = some result ∧
        input.WritesBack found w (thread.step w).2.store result := by
  obtain ⟨v, habides⟩ := h
  obtain ⟨call, rest⟩ := thread
  cases rest with
  | done result => cases hnone
  | ask request next =>
    rcases habides w trivial trivial with ⟨hstore, hnext⟩ | ⟨result, -, hout, hdeed⟩
    · exact .inl ⟨hstore, _, hnext⟩
    · exact .inr ⟨result, hout, hdeed⟩

/-- An update that has only read comes to no success. -/
theorem Holds.not_ok {program : Program Answer} (h : input.Holds found program) {answer : Answer} :
    program.outcome? ≠ some (.ok answer) := by
  intro hout
  obtain ⟨w, habides⟩ := h
  obtain ⟨failure, hfailure⟩ := habides.quiet_of_outcome trivial hout
  cases hfailure

end UpdateTeam

namespace Pool

variable {pool : Pool} {i j n : Nat} {first second input : UpdateTeam} {event : Event}
  {events : List Event} {config config' : Config}

/-- What the thread in a place came to. -/
def result? (pool : Pool) (i : Nat) : Option (Except Failure Answer) :=
  pool.threads[i]?.bind Thread.result?

/-- What a thread came to stays so. -/
theorem result?_step {result : Except Failure Answer} (h : pool.result? i = some result)
    (event : Event) : (pool.step event).result? i = some result := by
  obtain ⟨thread, hthread, hresult⟩ := Option.bind_eq_some_iff.mp h
  by_cases hown : event = .proceeds i
  · obtain ⟨thread', heq, -, hsame⟩ := Thread.step_returned hresult (w := pool.world)
    obtain ⟨hlt, -⟩ := List.getElem?_eq_some_iff.mp hthread
    rw [hown, step_proceeds hthread, heq]
    exact Option.bind_eq_some_iff.mpr ⟨thread', List.getElem?_set_self hlt, hsame⟩
  · have hother : event.thread? ≠ some i := fun heq => hown (Event.thread?_eq_some.mp heq)
    exact Option.bind_eq_some_iff.mpr ⟨thread, getElem?_step_other hthread hother, hresult⟩

theorem result?_run {result : Except Failure Answer} (h : pool.result? i = some result)
    (events : List Event) : (pool.run events).result? i = some result := by
  induction events generalizing pool with
  | nil => exact h
  | cons event rest ih => exact ih (result?_step h event)

/-- Who has not returned had not returned before. -/
theorem result?_none_of_append (early late : List Event)
    (h : (pool.run (early ++ late)).result? i = none) : (pool.run early).result? i = none := by
  rw [run_append] at h
  cases hearly : (pool.run early).result? i with
  | none => rfl
  | some result =>
    rw [result?_run hearly late] at h
    cases h

/-- A thread that returns does so with a step of its own. -/
theorem returns_at {thread : Thread} {result : Except Failure Answer}
    (hthread : pool.threads[i]? = some thread) (hnone : pool.result? i = none)
    (hreturn : (pool.run events).result? i = some result) :
    ∃ early late, events = early ++ .proceeds i :: late ∧ (pool.run early).result? i = none ∧
      ((pool.run early).step (.proceeds i)).result? i = some result := by
  induction events generalizing pool thread with
  | nil =>
    rw [run_nil, hnone] at hreturn
    cases hreturn
  | cons event rest ih =>
    have hrest : ∀ thread', (pool.step event).threads[i]? = some thread' →
        (pool.step event).result? i = none →
        ∃ early late, event :: rest = early ++ .proceeds i :: late ∧
          (pool.run early).result? i = none ∧
          ((pool.run early).step (.proceeds i)).result? i = some result := by
      intro thread' hthread' hnone'
      obtain ⟨early, late, rfl, hpending, hreturns⟩ := ih hthread' hnone' hreturn
      exact ⟨event :: early, late, rfl, hpending, hreturns⟩
    by_cases hown : event = .proceeds i
    · subst hown
      cases hnext : (pool.step (.proceeds i)).result? i with
      | some result' =>
        have hlater := result?_run hnext rest
        rw [run_cons, hlater] at hreturn
        exact ⟨[], rest, rfl, hnone, hnext.trans hreturn⟩
      | none =>
        obtain ⟨hlt, -⟩ := List.getElem?_eq_some_iff.mp hthread
        refine hrest (thread.step pool.world).1 ?_ hnext
        rw [step_proceeds hthread]
        exact List.getElem?_set_self hlt
    · have hkept := getElem?_step_other hthread fun heq => hown (Event.thread?_eq_some.mp heq)
      refine hrest thread hkept ?_
      rwa [result?, hkept, ← hthread]

/-- A thread that begins to update a team reads it in its first step. -/
theorem holds_read (hbegun : pool.threads[i]? = some (Call.act config (.updateTeam input)).begun) :
    (pool.step (.proceeds i)).world = pool.world ∧
      ∃ thread, (pool.step (.proceeds i)).threads[i]? = some thread ∧
        input.Holds (pool.world.store.findTeam input.teamId) thread.rest := by
  obtain ⟨-, hworld, hholds⟩ := UpdateTeam.holds_first config input pool.world
  obtain ⟨hlt, -⟩ := List.getElem?_eq_some_iff.mp hbegun
  rw [step_proceeds hbegun]
  exact ⟨hworld, _, List.getElem?_set_self hlt, hholds⟩

/-- Until it returns, an update holds the row that it has read. -/
theorem holds_run {found : Option Team} {thread : Thread} (hthread : pool.threads[i]? = some thread)
    (hholds : input.Holds found thread.rest) (events : List Event)
    (hnone : (pool.run events).result? i = none) :
    ∃ later, (pool.run events).threads[i]? = some later ∧ later.result? = none ∧
      input.Holds found later.rest := by
  induction events using List.reverseRecOn with
  | nil =>
    refine ⟨thread, hthread, ?_, hholds⟩
    rwa [run_nil, result?, hthread] at hnone
  | append_singleton events event ih =>
    obtain ⟨before, hbefore, hpending, hkept⟩ := ih (result?_none_of_append events [event] hnone)
    rw [run_append_singleton] at hnone ⊢
    by_cases hown : event = .proceeds i
    · obtain ⟨hlt, -⟩ := List.getElem?_eq_some_iff.mp hbefore
      rw [hown, step_proceeds hbefore] at hnone ⊢
      rw [result?, List.getElem?_set_self hlt, Option.bind_some] at hnone
      rcases hkept.step hpending (pool.run events).world with ⟨-, hnext⟩ | ⟨result, hout, -⟩
      · exact ⟨_, List.getElem?_set_self hlt, hnone, hnext⟩
      · rw [hout] at hnone
        cases hnone
    · exact ⟨before, getElem?_step_other hbefore fun heq => hown (Event.thread?_eq_some.mp heq),
        hpending, hkept⟩

/-- A thread stays as it is while only others take steps. -/
theorem getElem?_run_other {thread : Thread} (hthread : pool.threads[i]? = some thread)
    (hothers : .proceeds i ∉ events) : (pool.run events).threads[i]? = some thread := by
  induction events generalizing pool with
  | nil => exact hthread
  | cons event rest ih =>
    rw [List.mem_cons, not_or] at hothers
    exact ih (getElem?_step_other hthread fun heq => hothers.1 (Event.thread?_eq_some.mp heq).symm)
      hothers.2

/-- An update that returns with a success writes back the row that was there at its
first step, with the given fields changed. -/
theorem update_written {early late : List Event}
    (hbegun : pool.threads[i]? = some (Call.act config (.updateTeam input)).begun)
    (hfirst : .proceeds i ∉ early) {answer : Answer}
    (hnone : (pool.run (early ++ .proceeds i :: late)).result? i = none)
    (hok : ((pool.run (early ++ .proceeds i :: late)).step (.proceeds i)).result? i =
      some (.ok answer)) :
    input.WritesBack ((pool.run early).world.store.findTeam input.teamId)
      (pool.run (early ++ .proceeds i :: late)).world
      ((pool.run (early ++ .proceeds i :: late)).step (.proceeds i)).world.store (.ok answer) := by
  obtain ⟨-, thread, hthread, hholds⟩ := holds_read (getElem?_run_other hbegun hfirst)
  rw [run_append, run_cons] at hnone hok ⊢
  obtain ⟨before, hbefore, hpending, hkept⟩ := holds_run hthread hholds late hnone
  obtain ⟨hlt, -⟩ := List.getElem?_eq_some_iff.mp hbefore
  rw [step_proceeds hbefore] at hok ⊢
  rw [result?, List.getElem?_set_self hlt, Option.bind_some] at hok
  rcases hkept.step hpending _ with ⟨-, hnext⟩ | ⟨result, hout, hwrites⟩
  · exact absurd hok hnext.not_ok
  · rw [hok] at hout
    cases hout
    exact hwrites

/-- No update returns with a success in its first step. -/
theorem update_read_before
    (hbegun : pool.threads[i]? = some (Call.act config (.updateTeam input)).begun) {answer : Answer}
    (hok : ((pool.run events).step (.proceeds i)).result? i = some (.ok answer)) :
    .proceeds i ∈ events := by
  by_contra hunread
  obtain ⟨-, thread, hthread, hholds⟩ := holds_read (getElem?_run_other hbegun hunread)
  rw [result?, hthread, Option.bind_some] at hok
  exact absurd hok hholds.not_ok

end Pool

/-! ## Nothing but updates -/

/-- Where a thread stands that updates a team. -/
inductive Thread.Updates (input : UpdateTeam) : Thread → Prop
  | begun (config : Config) : Updates input (Call.act config (.updateTeam input)).begun
  | holds {found : Option Team} {thread : Thread} : input.Holds found thread.rest →
    Updates input thread
  | returned {result : Except Failure Answer} {thread : Thread} : thread.result? = some result →
    Updates input thread

/-- A step of an update leaves the tables alone, or the update returns with it. -/
theorem Thread.Updates.step {input : UpdateTeam} {thread : Thread} (h : thread.Updates input)
    (w : World Tables) :
    (thread.step w).1.Updates input ∧
      ((thread.step w).2.store = w.store ∨
        thread.result? = none ∧ ∃ result, (thread.step w).1.result? = some result) := by
  cases hresult : thread.result? with
  | some result =>
    obtain ⟨thread', heq, -, hsame⟩ := Thread.step_returned hresult (w := w)
    rw [heq]
    exact ⟨.returned hsame, .inl rfl⟩
  | none =>
    cases h with
    | begun config =>
      obtain ⟨-, hworld, hholds⟩ := UpdateTeam.holds_first config input w
      exact ⟨.holds hholds, .inl (congrArg World.store hworld)⟩
    | holds hholds =>
      rcases hholds.step hresult w with ⟨hstore, hnext⟩ | ⟨result, hout, -⟩
      · exact ⟨.holds hnext, .inl hstore⟩
      · exact ⟨.returned hout, .inr ⟨rfl, result, hout⟩⟩
    | returned hreturned =>
      rw [hreturned] at hresult
      cases hresult

namespace Pool

variable {pool : Pool} {i j n : Nat} {places : List Nat} {first second input : UpdateTeam}
  {event : Event} {events : List Event} {config config' : Config}

/-- The threads in these places are updates of teams. -/
def Updating (pool : Pool) (places : List Nat) : Prop :=
  ∀ n ∈ places, ∃ thread input, pool.threads[n]? = some thread ∧ thread.Updates input

/-- A step of one of them leaves the tables alone, or it returns with it. -/
theorem Updating.step (h : pool.Updating places) (hn : n ∈ places) :
    (pool.step (.proceeds n)).Updating places ∧
      ((pool.step (.proceeds n)).world.store = pool.world.store ∨
        pool.result? n = none ∧ ∃ result, (pool.step (.proceeds n)).result? n = some result) := by
  obtain ⟨thread, input, hthread, hupdates⟩ := h n hn
  obtain ⟨hlt, -⟩ := List.getElem?_eq_some_iff.mp hthread
  obtain ⟨hupdates', hstore⟩ := hupdates.step pool.world
  rw [result?, result?, step_proceeds hthread, List.getElem?_set_self hlt, hthread]
  refine ⟨?_, hstore⟩
  intro m hm
  by_cases hsame : n = m
  · subst hsame
    exact ⟨_, input, List.getElem?_set_self hlt, hupdates'⟩
  · obtain ⟨other, input', hother, hupdates⟩ := h m hm
    exact ⟨other, input', (List.getElem?_set_ne hsame).trans hother, hupdates⟩

theorem Updating.run (h : pool.Updating places)
    (hevents : ∀ event ∈ events, ∃ n ∈ places, event = .proceeds n) :
    (pool.run events).Updating places := by
  induction events using List.reverseRecOn with
  | nil => exact h
  | append_singleton events event ih =>
    rw [List.forall_mem_append, List.forall_mem_singleton] at hevents
    obtain ⟨hevents, n, hn, rfl⟩ := hevents
    rw [run_append_singleton]
    exact ((ih hevents).step hn).1

/-- While only updates run and none of them returns, the tables are as they were. -/
theorem Updating.store_eq (h : pool.Updating places)
    (hevents : ∀ event ∈ events, ∃ n ∈ places, event = .proceeds n)
    (hpending : ∀ n ∈ places, pool.result? n = none → (pool.run events).result? n = none) :
    (pool.run events).world.store = pool.world.store := by
  induction events using List.reverseRecOn with
  | nil => rfl
  | append_singleton events event ih =>
    rw [List.forall_mem_append, List.forall_mem_singleton] at hevents
    obtain ⟨hevents, n, hn, rfl⟩ := hevents
    have hbefore := ih hevents fun m hm hnone => result?_none_of_append events [.proceeds n] (hpending m hm hnone)
    rw [run_append_singleton] at hpending ⊢
    rcases ((h.run hevents).step hn).2 with hkept | ⟨hnone, result, hresult⟩
    · exact hkept.trans hbefore
    · -- who returns with the last step had not returned in the beginning
      have hstart : pool.result? n = none := result?_none_of_append [] events hnone
      rw [hpending n hn hstart] at hresult
      cases hresult

end Pool

/-- The row that an update has written is the one that is found. -/
theorem Tables.findTeam_updateTeam {s s' : Tables} {team reply : Team}
    (h : s.updateTeam team = .ok (reply, s')) (hactive : team.status = .active) :
    s'.findTeam team.id = some team := by
  obtain ⟨⟨before, hfound⟩, -, -, rfl⟩ := updateTeam_ok h
  obtain ⟨hbefore, hid, -⟩ := findTeam_some hfound
  have hrow : ∃ row, findTeam { s with
      teams := s.teams.map fun t => if t.id = team.id then team else t } team.id = some row := by
    refine Option.isSome_iff_exists.mp (List.find?_isSome.mpr ⟨team, ?_, ?_⟩)
    · exact List.mem_map.mpr ⟨before, hbefore, if_pos hid⟩
    · simp [Team.isActive, hactive]
  obtain ⟨row, hrow⟩ := hrow
  obtain ⟨hmem, hrid, -⟩ := findTeam_some hrow
  obtain ⟨t, -, rfl⟩ := List.mem_map.mp hmem
  rw [hrow]
  by_cases htid : t.id = team.id
  · rw [if_pos htid]
  · rw [if_neg htid] at hrid
    exact absurd hrid htid

/-- After an update has written the row back, the row that is found has the given fields
changed. -/
theorem UpdateTeam.WritesBack.found {input : UpdateTeam} {row : Team} {w : World Tables}
    {s : Tables} {result : Except Failure Answer} (h : input.WritesBack (some row) w s result)
    (hactive : row.status = .active) (hid : row.id = input.teamId) :
    ∃ name now, Option.Rel (fun given checked => TeamName.validate given = .ok checked)
        input.name name ∧
      s.findTeam input.teamId = some (input.revise name row now) := by
  obtain ⟨before, name, now, team, hbefore, hnamed, hwrite, -⟩ := h
  cases hbefore
  have hfound := Tables.findTeam_updateTeam hwrite ((input.revise_status name row now).trans hactive)
  rw [UpdateTeam.revise_id, hid] at hfound
  exact ⟨name, now, hnamed, hfound⟩

namespace Pool

variable {pool : Pool} {i : Nat} {places : List Nat} {input : UpdateTeam} {events : List Event}
  {config : Config}

/-- An update that runs while no other one returns changes the row that was there in the
beginning. -/
theorem Updating.update_row (h : pool.Updating places)
    (hevents : ∀ event ∈ events, ∃ n ∈ places, event = .proceeds n)
    (hpending : ∀ n ∈ places, pool.result? n = none → (pool.run events).result? n = none)
    (hbegun : pool.threads[i]? = some (Call.act config (.updateTeam input)).begun)
    (hnone : (pool.run events).result? i = none) {answer : Answer}
    (hok : ((pool.run events).step (.proceeds i)).result? i = some (.ok answer)) :
    ∃ row name now, pool.world.store.findTeam input.teamId = some row ∧
      Option.Rel (fun given checked => TeamName.validate given = .ok checked) input.name name ∧
      ((pool.run events).step (.proceeds i)).world.store.findTeam input.teamId =
        some (input.revise name row now) := by
  obtain ⟨early, late, rfl, hunread⟩ := List.eq_append_cons_of_mem (update_read_before hbegun hok)
  have hsame : (pool.run early).world.store = pool.world.store :=
    h.store_eq (fun event hevent => hevents event (List.mem_append_left _ hevent))
      fun n hn hn' => result?_none_of_append early _ (hpending n hn hn')
  have hwrites := update_written hbegun hunread hnone hok
  rw [hsame] at hwrites
  obtain ⟨row, -, -, -, hrow, -⟩ := id hwrites
  obtain ⟨-, hid, hactive⟩ := Tables.findTeam_some hrow
  rw [hrow] at hwrites
  obtain ⟨name, now, hnamed, hfound⟩ := hwrites.found hactive hid
  exact ⟨row, name, now, hrow, hnamed, hfound⟩

/-- Two updates of a team run, and nothing else; `i` returns before `j`, and both with a
success. The row that is found at the end has the values of `j`. If `j` took its first
step after `i` had returned, the row has the values of `i` too; but if it took it before,
the fields of `i` are as they were before both calls. -/
theorem later_update_wins (pool : Pool) (i j : Nat) (config config' : Config)
    (first second : UpdateTeam) (mid late : List Event) (answer answer' : Answer)
    (hfirst : pool.threads[i]? = some (Call.act config (.updateTeam first)).begun)
    (hsecond : pool.threads[j]? = some (Call.act config' (.updateTeam second)).begun)
    (hteam : second.teamId = first.teamId) (hdisjoint : first.Disjoint second)
    (hevents : ∀ event ∈ mid ++ .proceeds i :: late, ∃ n ∈ [i, j], event = .proceeds n)
    (hpending : (pool.run mid).result? i = none)
    (hreturn : (pool.run (mid ++ [.proceeds i])).result? i = some (.ok answer))
    (hpending' : (pool.run (mid ++ [.proceeds i])).result? j = none)
    (hreturn' : (pool.run (mid ++ .proceeds i :: late)).result? j = some (.ok answer')) :
    ∃ row final, pool.world.store.findTeam first.teamId = some row ∧
      (pool.run (mid ++ .proceeds i :: late)).world.store.findTeam first.teamId = some final ∧
      second.CarriedBy final ∧
      (.proceeds j ∉ mid → first.CarriedBy final) ∧
      (.proceeds j ∈ mid → first.SameFields row final) := by
  have hupdating : pool.Updating [i, j] := by
    rw [Updating, List.forall_mem_cons, List.forall_mem_singleton]
    exact ⟨⟨_, first, hfirst, .begun config⟩, ⟨_, second, hsecond, .begun config'⟩⟩
  obtain ⟨hmid, hlate⟩ := List.forall_mem_append.mp hevents
  rw [List.forall_mem_cons] at hlate
  -- the first one to return changes the row that was there in the beginning
  have hneither : ∀ n ∈ [i, j], pool.result? n = none → (pool.run mid).result? n = none := by
    rw [List.forall_mem_cons, List.forall_mem_singleton]
    exact ⟨fun _ => hpending, fun _ => result?_none_of_append mid [.proceeds i] hpending'⟩
  rw [run_append, run_cons] at hreturn' ⊢
  rw [run_append_singleton] at hreturn hpending'
  obtain ⟨row, name, now, hrow, hnamed, hwritten⟩ :=
    hupdating.update_row hmid hneither hfirst hpending hreturn
  -- the second one returns with a step of its own, and then nothing changes any more
  have hwrote := ((hupdating.run hmid).step (n := i) List.mem_cons_self).1
  obtain ⟨thread, -, hthread, -⟩ := hwrote j (List.mem_cons_of_mem _ List.mem_cons_self)
  obtain ⟨between, rest, rfl, hnone', hok'⟩ := returns_at hthread hpending' hreturn'
  obtain ⟨hbetween, hrest⟩ := List.forall_mem_append.mp hlate.2
  rw [List.forall_mem_cons] at hrest
  have hdone := ((hwrote.run hbetween).step (n := j) (List.mem_cons_of_mem _ List.mem_cons_self)).1
  have hend : (((pool.run mid).step (.proceeds i)).run (between ++ .proceeds j :: rest)).world.store =
      ((((pool.run mid).step (.proceeds i)).run between).step (.proceeds j)).world.store := by
    rw [run_append, run_cons]
    refine hdone.store_eq hrest.2 ?_
    rw [List.forall_mem_cons, List.forall_mem_singleton, hok',
      result?_step (result?_run hreturn between)]
    exact ⟨fun hnone => (Option.some_ne_none _ hnone).elim,
      fun hnone => (Option.some_ne_none _ hnone).elim⟩
  rw [hend]
  by_cases hread : .proceeds j ∈ mid
  · -- it had read the row before the first one changed it
    obtain ⟨early, rest', rfl, hunread⟩ := List.eq_append_cons_of_mem hread
    have hsame : (pool.run early).world.store = pool.world.store :=
      hupdating.store_eq (fun event hevent => hmid event (List.mem_append_left _ hevent))
        fun n hn hnone => result?_none_of_append early _ (hneither n hn hnone)
    rw [← run_cons, ← run_append, List.append_assoc, List.cons_append] at hnone' hok' ⊢
    have hwrites := update_written hsecond hunread hnone' hok'
    rw [hsame, hteam, hrow] at hwrites
    obtain ⟨-, hid, hactive⟩ := Tables.findTeam_some hrow
    obtain ⟨name', now', hnamed', hfinal⟩ := hwrites.found hactive (hid.trans hteam.symm)
    rw [hteam] at hfinal
    exact ⟨row, _, hrow, hfinal, UpdateTeam.carriedBy_revise hnamed' row now',
      fun hno => absurd hread hno, fun _ => hdisjoint.sameFields_revise hnamed' row now'⟩
  · -- it changes the row that the first one has written
    have hother : (Event.proceeds i).thread? ≠ some j := by
      intro heq
      rw [← Option.some.inj heq, hreturn] at hpending'
      cases hpending'
    have hbegun := getElem?_step_other (getElem?_run_other hsecond hread) hother
    have hlast : ∀ n ∈ [i, j], ((pool.run mid).step (.proceeds i)).result? n = none →
        (((pool.run mid).step (.proceeds i)).run between).result? n = none := by
      rw [List.forall_mem_cons, List.forall_mem_singleton, hreturn]
      exact ⟨fun hnone => (Option.some_ne_none _ hnone).elim, fun _ => hnone'⟩
    obtain ⟨row', name', now', hrow', hnamed', hfinal⟩ :=
      hwrote.update_row hbetween hlast hbegun hnone' hok'
    rw [hteam, hwritten] at hrow'
    cases hrow'
    rw [hteam] at hfinal
    refine ⟨row, _, hrow, hfinal, UpdateTeam.carriedBy_revise hnamed' _ now', ?_,
      fun hyes => absurd hyes hread⟩
    intro _
    exact (UpdateTeam.carriedBy_revise hnamed row now).of_sameFields
      (hdisjoint.sameFields_revise hnamed' _ now')

/-- The owner describes the team. -/
def describing : UpdateTeam :=
  { teamId := 1
    requesterId := 7
    name := none
    description := some (some "Docs")
    visibility := none
    memberLimit := none }

/-- The owner conceals the team. -/
def concealing : UpdateTeam :=
  { describing with description := none, visibility := some .membersOnly }

theorem describing_disjoint_concealing : describing.Disjoint concealing :=
  ⟨.inl rfl, .inr rfl, .inl rfl, .inl rfl⟩

/-- The owner of a team is about to describe it in one call and to conceal it in
another. -/
def editing : Pool :=
  (start .epoch .sequence).run (rivals.take 5 ++
    [.begins (.act .default (.updateTeam describing)), .begins (.act .default (.updateTeam concealing))])

/-- One after the other. -/
theorem later_update_wins_of_turns :
    ∃ row final, editing.world.store.findTeam 1 = some row ∧
      (editing.run (List.replicate 3 (.proceeds 1) ++
        .proceeds 1 :: List.replicate 4 (.proceeds 2))).world.store.findTeam 1 = some final ∧
      describing.CarriedBy final ∧ concealing.CarriedBy final := by
  have hruns : ((editing.run (List.replicate 3 (.proceeds 1))).result? 1).isNone = true ∧
      ((editing.run (List.replicate 3 (.proceeds 1) ++ [.proceeds 1])).result? 1).any
        Except.isOk = true ∧
      ((editing.run (List.replicate 3 (.proceeds 1) ++ [.proceeds 1])).result? 2).isNone = true ∧
      ((editing.run (List.replicate 3 (.proceeds 1) ++
        .proceeds 1 :: List.replicate 4 (.proceeds 2))).result? 2).any Except.isOk = true := by
    decide +kernel
  obtain ⟨hpending, hreturn, hpending', hreturn'⟩ := hruns
  simp only [Option.any_eq_true, Option.isNone_iff_eq_none] at hpending hreturn hpending' hreturn'
  obtain ⟨result, hreturn, hok⟩ := hreturn
  obtain ⟨result', hreturn', hok'⟩ := hreturn'
  cases result with
  | error failure => cases hok
  | ok answer =>
    cases result' with
    | error failure => cases hok'
    | ok answer' =>
      obtain ⟨row, final, hrow, hfinal, hconcealed, hdescribed, -⟩ :=
        later_update_wins editing 1 2 .default .default describing concealing
          (List.replicate 3 (.proceeds 1)) (List.replicate 4 (.proceeds 2)) answer answer' rfl rfl rfl
          describing_disjoint_concealing (by simp) hpending hreturn hpending' hreturn'
      exact ⟨row, final, hrow, hfinal, hdescribed (by simp), hconcealed⟩

/-- The second call reads the team before the first one writes it. -/
def overlapping : List Event :=
  .proceeds 2 :: List.replicate 4 (.proceeds 1) ++ List.replicate 3 (.proceeds 2)

/-- Both calls return with a success, and the description is gone. -/
theorem update_overwritten :
    describing.Disjoint concealing ∧
      ((editing.run overlapping).result? 1).any Except.isOk = true ∧
      ((editing.run overlapping).result? 2).any Except.isOk = true ∧
      ∃ final, (editing.run overlapping).world.store.findTeam 1 = some final ∧
        ¬describing.CarriedBy final := by
  have hruns : ((editing.run overlapping).result? 1).any Except.isOk = true ∧
      ((editing.run overlapping).result? 2).any Except.isOk = true ∧
      ((editing.run overlapping).world.store.findTeam 1).any (·.description = none) = true := by
    decide +kernel
  obtain ⟨hok, hok', hgone⟩ := hruns
  obtain ⟨final, hfinal, hnone⟩ := (Option.any_eq_true _ _).mp hgone
  refine ⟨describing_disjoint_concealing, hok, hok', final, hfinal, ?_⟩
  intro hcarried
  rw [hcarried.description (some "Docs") rfl] at hnone
  cases of_decide_eq_true hnone

end Pool

end Roster
