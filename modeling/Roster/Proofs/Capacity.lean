import Roster.Proofs.Ledger
import Roster.Proofs.Ownership
import Roster.Proofs.Program.Units
import Roster.Proofs.Tables.Balance

/-!
# Room in a team

* `Tables.WithinLimit` — a team has no more members than its row allows;
* `Call.Deed.joined_within` — it is so right after any deed that brings a member,
  because the deed counts them and adds the new one in the same step;
* `Tables.Counted` — no team outgrows what the store can count, so that its
  counts are exact in every pool (`Pool.counted_fits`);
* `Pool.limit_at_admission` — pools that start on an empty store are within the
  limit whenever somebody is let in.
-/

namespace Roster

/-- A team is stored, and it has no more members than its row allows. -/
def Tables.WithinLimit (s : Tables) (team : Int) : Prop :=
  (∃ row ∈ s.teams, row.id = team) ∧
    ∀ row ∈ s.teams, row.id = team → s.membersOf team ≤ row.memberLimit.toNat

/-- No team has more members than the store can count. -/
def Tables.Counted (s : Tables) : Prop :=
  ∀ team, s.membersOf team ≤ maxCount

/-- The team that a unit of work with the given reply has let somebody into: it
founded the team or enrolled a member. -/
def UnitOfWork.admits? : {α : Type} → UnitOfWork α → α → Option Int
  | _, .found _, team => some team.id
  | _, .enrol _ _, member => some member.teamId
  | _, _, _ => none

/-- The team that the next step of a thread lets somebody into, by committing a
unit of work. -/
def Thread.admits? (thread : Thread) (w : World Tables) : Option Int :=
  match thread.rest with
  | .ask (.atomically unit) _ =>
    (w.answer (.atomically unit)).reply.toOption.bind unit.admits?
  | _ => none

/-- The team that a call with the given result reports to have let somebody into. -/
def Call.admitted? : Call → Except Failure Answer → Option Int
  | .act _ (.createTeam _), .ok (.team team) => some team.id
  | .act _ (.acceptInvitation _ _ _), .ok (.member member) => some member.teamId
  | _, _ => none

/-- The team that a thread reports to have let somebody into, once it has
returned. -/
def Thread.admitted? (thread : Thread) : Option Int :=
  thread.result?.bind thread.call.admitted?

/-! ## Counts -/

namespace Tables

variable {s : Tables} {team : Int}

/-- The store counts members up to `maxCount`. -/
theorem countMembers_toNat (s : Tables) (team : Int) :
    (s.countMembers team).toNat = min (s.membersOf team) maxCount := by
  have hmin : min (s.membersOf team) maxCount ≤ maxCount := Nat.min_le_right _ _
  rw [countMembers, UInt32.toNat_ofNat']
  exact Nat.mod_eq_of_lt (Nat.lt_succ_of_le hmin)

/-- Below a limit the count is exact. -/
theorem membersOf_lt {limit : UInt32} (h : s.countMembers team < limit) :
    s.membersOf team < limit.toNat := by
  have hlt := UInt32.lt_iff_toNat_lt.mp h
  have hmax : limit.toNat ≤ maxCount := Nat.le_of_lt_succ limit.toNat_lt
  rw [countMembers_toNat] at hlt
  omega

/-- The count is below a limit exactly if there is room. -/
theorem countMembers_lt {limit : UInt32} :
    s.countMembers team < limit ↔ s.membersOf team < limit.toNat := by
  refine ⟨membersOf_lt, ?_⟩
  intro hroom
  rw [UInt32.lt_iff_toNat_lt, countMembers_toNat]
  omega

/-- Nobody is a member of a team that is not stored yet. -/
theorem membersOf_fresh (hk : s.Keyed) (ho : s.Owned) (hfresh : s.lastTeamId < team) :
    s.membersOf team = 0 := by
  refine List.countP_eq_zero.mpr ?_
  intro m hm hteam
  obtain ⟨t, ht, hid, -⟩ := ho.roles m hm
  have hle := hk.teams_le t ht
  have hsame := of_decide_eq_true hteam
  omega

end Tables

section

variable {rely : Rely} {call : Call} {w : World Tables} {s : Tables}
  {result : Except Failure Answer}

theorem Founding.membersOf_eq {config : Config} {input : CreateTeam} {name : String}
    {now : Instant} {team : Team} (h : Founding rely config input name now w s team) (id : Int) :
    s.membersOf id = w.store.membersOf id + if team.id = id then 1 else 0 := by
  obtain ⟨founded, member, hcreate, hadd⟩ := h.written
  have hcount := Tables.membersOf_addMember id hadd
  obtain ⟨-, rfl, -, -⟩ := Tables.addMember_ok hadd
  obtain ⟨-, -, rfl⟩ := Tables.createTeam_ok hcreate
  exact hcount

theorem Acceptance.membersOf_eq {token : Secret} {user : Int} {email : String}
    {invitation : Invitation} {member : Member}
    (h : Acceptance rely token user email invitation w s member) (id : Int) :
    s.membersOf id = w.store.membersOf id + if member.teamId = id then 1 else 0 := by
  obtain ⟨team, joined, accepted, -, -, hadd, hsettle⟩ := h.written
  rw [← Tables.membersOf_addMember id hadd, Tables.membersOf, Tables.membersOf,
    (Tables.settleInvitation_frame hsettle).2]

/-- An acceptance finds room in the team. -/
theorem Acceptance.room {token : Secret} {user : Int} {email : String} {invitation : Invitation}
    {member : Member} (h : Acceptance rely token user email invitation w s member) :
    ∃ team ∈ w.store.teams, team.id = member.teamId ∧
      w.store.membersOf member.teamId < team.memberLimit.toNat := by
  obtain ⟨hmember, -⟩ := h.members_perm
  obtain ⟨team, joined, accepted, hteam, hroom, -, -⟩ := h.written
  obtain ⟨hmem, hid, -⟩ := Tables.findTeam_some hteam
  rw [hmember, ← hid]
  exact ⟨team, hmem, rfl, Tables.membersOf_lt hroom⟩

/-! ## Right after somebody was let in -/

/-- A team starts with its owner, under a limit that is not zero. -/
theorem Founding.within (hk : w.store.Keyed) (ho : w.store.Owned) {config : Config}
    {input : CreateTeam} {name : String} {now : Instant} {team : Team}
    (h : Founding rely config input name now w s team) : s.WithinLimit team.id := by
  obtain ⟨hid, -, hteams⟩ := h.teams_eq
  have hone : s.membersOf team.id = 1 := by
    rw [h.membersOf_eq team.id, Tables.membersOf_fresh hk ho (by omega), if_pos rfl]
  have hlimit : team.memberLimit ≠ 0 := by
    obtain ⟨founded, member, hcreate, -⟩ := h.written
    obtain ⟨-, rfl, -⟩ := Tables.createTeam_ok hcreate
    exact h.limited
  have hpos : 0 < team.memberLimit.toNat :=
    Nat.pos_of_ne_zero fun hzero => hlimit (UInt32.toNat_inj.mp hzero)
  refine ⟨⟨team, ?_, rfl⟩, ?_⟩
  · rw [hteams]
    exact List.mem_append_right _ List.mem_cons_self
  · intro row hrow hrid
    rw [hteams] at hrow
    rcases List.mem_append.mp hrow with hold | hnew
    · -- no earlier row has the fresh id
      have hle := hk.teams_le row hold
      omega
    · rw [List.mem_singleton.mp hnew]
      omega

/-- The room that an acceptance found is there in the step that fills it. -/
theorem Acceptance.within (hk : w.store.Keyed) {token : Secret} {user : Int} {email : String}
    {invitation : Invitation} {member : Member}
    (h : Acceptance rely token user email invitation w s member) :
    s.WithinLimit member.teamId := by
  obtain ⟨team, hteam, hid, hroom⟩ := h.room
  have hcount := h.membersOf_eq member.teamId
  rw [if_pos rfl] at hcount
  rw [Tables.WithinLimit, h.teams_eq]
  refine ⟨⟨team, hteam, hid⟩, ?_⟩
  intro row hrow hrid
  rw [hk.team_eq hrow hteam (hrid.trans hid.symm)]
  omega

/-- Whoever brings a new member into a team leaves it within its limit. -/
theorem Call.Deed.joined_within (hk : w.store.Keyed) (ho : w.store.Owned)
    (h : call.Deed rely w s result) {m : Member} (hm : m ∈ s.members)
    (hnew : w.store.isMember m.teamId m.userId = false) : s.WithinLimit m.teamId := by
  rcases h.member_joined hm hnew with
    ⟨config, input, name, now, team, -, hfounding, hteam, -⟩ |
    ⟨config, token, user, email, invitation, -, hacceptance⟩
  · rw [hteam]
    exact hfounding.within hk ho
  · exact hacceptance.within hk

/-- A call that reports to have let somebody into a team did so by its deed. -/
theorem Call.Deed.admitted (h : call.Deed rely w s result) {team : Int}
    (hadmitted : call.admitted? result = some team) :
    ∃ m ∈ s.members, m.teamId = team ∧ w.store.isMember m.teamId m.userId = false := by
  cases h with
  | founds h =>
    obtain ⟨member, hteam, -, hnew, hperm⟩ := h.members_perm
    exact ⟨member, hperm.mem_iff.mpr List.mem_cons_self,
      hteam.trans (Option.some.inj hadmitted), hnew⟩
  | accepts h =>
    obtain ⟨-, -, -, hnew, hperm⟩ := h.members_perm
    exact ⟨_, hperm.mem_iff.mpr List.mem_cons_self, Option.some.inj hadmitted, hnew⟩
  | _ => cases hadmitted

/-- Without a deed no call reports that. -/
theorem Call.Quiet.admitted?_eq_none (h : call.Quiet result) : call.admitted? result = none := by
  unfold Call.admitted?
  split
  · cases h.onlyReads_of_ok
  · cases h.onlyReads_of_ok
  · rfl

/-- Deeds keep to what the store can count. -/
theorem Call.Deed.counted (hk : w.store.Keyed) (ho : w.store.Owned) (hc : w.store.Counted)
    (h : call.Deed rely w s result) : s.Counted := by
  intro team
  have hteam := hc team
  rcases h.members with heq | hdeed
  · rw [Tables.membersOf, heq]
    exact hteam
  · cases hdeed with
    | @founds _ _ _ _ _ _ founded h =>
      obtain ⟨hid, -, -⟩ := h.teams_eq
      rw [h.membersOf_eq team]
      by_cases hsame : founded.id = team
      · rw [if_pos hsame, Tables.membersOf_fresh hk ho (by omega)]
        decide
      · rw [if_neg hsame]
        exact hteam
    | changesRole _ h =>
      rw [Tables.membersOf_setRole team h.written]
      exact hteam
    | removes _ h => exact Nat.le_trans (Tables.membersOf_removeMember_le team h.written) hteam
    | @accepts _ _ _ _ _ _ _ member h =>
      obtain ⟨row, -, -, hroom⟩ := h.room
      have hmax := row.memberLimit.toNat_lt
      rw [h.membersOf_eq team, maxCount]
      by_cases hsame : member.teamId = team
      · rw [if_pos hsame, ← hsame]
        omega
      · rw [if_neg hsame]
        exact hteam

end

/-! ## Steps that let somebody in -/

/-- A unit of work that was committed gives its reply. -/
theorem World.answer_atomically_ok {α : Type} {unit : UnitOfWork α} {w : World Tables} {a : α}
    (h : (w.answer (.atomically unit)).reply = .ok a) :
    unit.work.Gives w.clock w.store a (w.answer (.atomically unit)).world.store := by
  cases hresult : (unit.work.run w.clock w.store).result with
  | error e =>
    simp only [World.answer, World.take, Work.runAtomically, hresult] at h
    cases h
  | ok reply =>
    simp only [World.answer, World.take, Work.runAtomically, hresult] at h ⊢
    exact ⟨hresult.trans h, rfl⟩

/-- A unit of work that gives a reply is committed with it. -/
theorem World.answer_atomically_of_gives {α : Type} (unit : UnitOfWork α) {w : World Tables}
    {reply : α} {s : Tables} (h : unit.work.Gives w.clock w.store reply s) :
    w.answer (.atomically unit) =
      ⟨.ok reply, (w.answer (.atomically unit)).log, { w with store := s }⟩ := by
  obtain ⟨hresult, hstore⟩ := h
  simp only [answer, take, Work.runAtomically, hresult, hstore]

/-- A unit of work that lets somebody into a team brings a new member. -/
theorem UnitOfWork.admits?_joins {α : Type} {unit : UnitOfWork α} {time : Instant} {s s' : Tables}
    {reply : α} (h : unit.work.Gives time s reply s') {team : Int}
    (hadmits : unit.admits? reply = some team) :
    ∃ m ∈ s'.members, m.teamId = team ∧ s.isMember m.teamId m.userId = false := by
  cases unit with
  | found draft =>
    obtain ⟨founded, member, hcreate, hadd⟩ := foundTeam_gives.mp h
    obtain ⟨hnew, rfl, hperm, -⟩ := Tables.addMember_ok hadd
    obtain ⟨-, -, rfl⟩ := Tables.createTeam_ok hcreate
    exact ⟨_, hperm.mem_iff.mpr List.mem_cons_self, Option.some.inj hadmits, hnew⟩
  | enrol invitation user =>
    obtain ⟨found, joined, accepted, -, -, -, hadd, hsettle⟩ := enrolMember_gives.mp h
    obtain ⟨hnew, rfl, hperm, -⟩ := Tables.addMember_ok hadd
    refine ⟨_, ?_, Option.some.inj hadmits, hnew⟩
    rw [(Tables.settleInvitation_frame hsettle).2]
    exact hperm.mem_iff.mpr List.mem_cons_self
  | dissolve => cases hadmits
  | batch => cases hadmits

/-- So does the step of a thread that commits one. -/
theorem Thread.admits?_joins {thread : Thread} {w : World Tables} {team : Int}
    (h : thread.admits? w = some team) :
    ∃ m ∈ (thread.step w).2.store.members, m.teamId = team ∧
      w.store.isMember m.teamId m.userId = false := by
  unfold Thread.admits? at h
  split at h
  · rename_i unit next hrest
    obtain ⟨reply, hreply, hadmits⟩ := Option.bind_eq_some_iff.mp h
    simp only [Thread.step, hrest]
    cases hok : (w.answer (.atomically unit)).reply with
    | error e =>
      rw [hok] at hreply
      cases hreply
    | ok committed =>
      rw [hok] at hreply
      cases Option.some.inj hreply
      exact UnitOfWork.admits?_joins (World.answer_atomically_ok hok) hadmits
  · cases h

namespace Pool

variable {rely : Rely} {pool pool' : Pool} {event : Event}

/-- After an event that brings a member into a team, the team is within its
limit. -/
theorem Course.joined_within (hk : pool.world.store.Keyed) (ho : pool.world.store.Owned)
    (hcourse : Course rely pool event pool') {m : Member} (hm : m ∈ pool'.world.store.members)
    (hnew : pool.world.store.isMember m.teamId m.userId = false) :
    pool'.world.store.WithinLimit m.teamId := by
  obtain ⟨-, hmembers, -⟩ | ⟨_, _, _, _, -, -, -, -, -, hdeed⟩ := hcourse.rows_or_deed
  · rw [Tables.isMember_iff.mpr ⟨m, hmembers ▸ hm, rfl, rfl⟩] at hnew
    cases hnew
  · exact hdeed.joined_within hk ho hm hnew

end Pool

/-! ## Pools -/

/-- Ownership and exact counts are kept by all that can happen. -/
theorem Rely.counted_governs : (Rely.among fun s => s.Owned ∧ s.Counted).Governs :=
  Rely.among_governs
    (fun hinv hdeed =>
      ⟨hdeed.owned (Rely.among_orderly _) (fun hinv => hinv.2.1) hinv,
        hdeed.counted hinv.1 hinv.2.1 hinv.2.2⟩)
    (fun _ _ h => ⟨h.1.of_eq rfl rfl, h.2⟩) fun _ h => ⟨h.1.of_eq rfl rfl, h.2⟩

namespace Pool

/-- In pools that start on an empty store no team outgrows the count. -/
theorem counted_fits (clock : Instant) (random : RandomSource) (events : List Event) :
    ((start clock random).run events).Fits (Rely.among fun s => s.Owned ∧ s.Counted) := by
  have hempty : Tables.empty.Owned ∧ Tables.empty.Counted :=
    ⟨Tables.empty_owned, fun _ => Nat.zero_le _⟩
  exact (fits_run Rely.counted_governs (fits_nil ⟨Tables.empty_keyed, hempty⟩) events).1

/-- Whatever runs together, right after a step that commits the founding of a team
or the enrolment of a member the team has no more members than its row then allows;
and that is the step with which the call returns that reports it. -/
theorem limit_at_admission (clock : Instant) (random : RandomSource) (events : List Event)
    (i : Nat) (team : Int) :
    let pool := (start clock random).run events
    let next := pool.step (.proceeds i)
    (∀ thread, pool.threads[i]? = some thread → thread.admits? pool.world = some team →
      next.world.store.WithinLimit team) ∧
    ∀ before after, pool.threads[i]? = some before → before.result? = none →
      next.threads[i]? = some after → after.admitted? = some team →
      next.world.store.WithinLimit team := by
  intro pool next
  have hfits := fits_start clock random events
  obtain ⟨hk, ho⟩ := hfits.inv
  have hcourse := (course_step Rely.owned_governs hfits (.proceeds i)).1
  constructor
  · intro thread hthread hadmits
    obtain ⟨m, hm, rfl, hnew⟩ := Thread.admits?_joins hadmits
    have hstep : next.world = (thread.step pool.world).2 :=
      congrArg Pool.world (step_proceeds hthread)
    rw [← hstep] at hm
    exact hcourse.joined_within hk ho hm hnew
  · intro before after hbefore hnone hafter hadmitted
    obtain ⟨result, hresult, hreports⟩ := Option.bind_eq_some_iff.mp hadmitted
    obtain ⟨hcall, ⟨-, hquiet⟩ | hdeed⟩ := hcourse.returned hbefore hnone hafter hresult
    · rw [hcall, hquiet.admitted?_eq_none] at hreports
      cases hreports
    · rw [hcall] at hreports
      obtain ⟨m, hm, rfl, hnew⟩ := hdeed.admitted hreports
      exact hdeed.joined_within hk ho hm hnew

/-- The founder returns with the step that founds the team; later the addressee of
an invitation to it is enrolled. -/
theorem limit_at_admission_of_rivals :
    (∃ before after, ((start .epoch .sequence).run (rivals.take 4)).threads[0]? = some before ∧
      before.result? = none ∧
      (((start .epoch .sequence).run (rivals.take 4)).step (.proceeds 0)).threads[0]? =
        some after ∧
      after.admitted? = some 1 ∧
      (((start .epoch .sequence).run (rivals.take 4)).step
        (.proceeds 0)).world.store.WithinLimit 1) ∧
    ∃ thread, ((start .epoch .sequence).run rivals).threads[2]? = some thread ∧
      thread.admits? ((start .epoch .sequence).run rivals).world = some 1 ∧
      (((start .epoch .sequence).run rivals).step (.proceeds 2)).world.store.WithinLimit 1 := by
  have hfounder : ((start .epoch .sequence).run (rivals.take 4)).threads[0]?.any
        (fun thread => thread.result?.isNone) = true ∧
      (((start .epoch .sequence).run (rivals.take 4)).step (.proceeds 0)).threads[0]?.any
        (fun thread => thread.admitted? = some 1) = true := by
    decide +kernel
  have haddressee : ((start .epoch .sequence).run rivals).threads[2]?.any
      (fun thread => thread.admits? ((start .epoch .sequence).run rivals).world = some 1) =
        true := by
    decide +kernel
  simp only [Option.any_eq_true, Option.isNone_iff_eq_none, decide_eq_true_eq] at hfounder haddressee
  constructor
  · obtain ⟨⟨before, hbefore, hnone⟩, after, hafter, hadmitted⟩ := hfounder
    have hlimit := limit_at_admission .epoch .sequence (rivals.take 4) 0 1
    dsimp only at hlimit
    exact ⟨before, after, hbefore, hnone, hafter, hadmitted,
      hlimit.2 before after hbefore hnone hafter hadmitted⟩
  · obtain ⟨thread, hthread, hadmits⟩ := haddressee
    have hlimit := limit_at_admission .epoch .sequence rivals 2 1
    dsimp only at hlimit
    exact ⟨thread, hthread, hadmits, hlimit.1 thread hthread hadmits⟩

end Pool

end Roster
