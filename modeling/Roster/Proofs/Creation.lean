import Roster.Proofs.Checks
import Roster.Proofs.SoleWinner
import Roster.Proofs.WellFormed

/-!
# What the creation of a team comes to

Whoever creates a team looks for the slug, and the store looks again as it writes. Run alone, the
two looks see the same, and nobody is a member of a team that does not exist yet, so that nothing
is refused once the writing has begun.

* `Program.unitFailures` — the failures that a run meets inside its units of work;
* `Program.Smooth` — what a run comes to if it meets none, with `Smooth.bind` and one rule for
  each kind of step;
* `CreateTeam.obstacles` — what may stand in the way of a creation, in the order in which it
  counts;
* `CreateTeam.founded`, `CreateTeam.Founds` — the new team, and all that changes with it;
* `UnitOfWork.foundTeam_writes` — the store takes both rows;
* `CreateTeam.Verdict` — what is to come of a creation, and `Pool.creation_verdict` that it does,
  in every world that calls can make, and that no unit of work fails.
-/

namespace Roster

/-! ## Failures inside units of work -/

/-- The failure that a unit of work is answered with. -/
def Request.unitFailure : {β : Type} → Request β → β → List TeamError
  | _, .atomically _, .error e => [e]
  | _, _, _ => []

namespace Program

variable {α β : Type}

/-- The failures of the units of work that a program asks for as it runs. -/
def unitFailures : Program α → World Tables → List TeamError
  | .done _, _ => []
  | .ask request next, w =>
    let turn := w.answer request
    request.unitFailure turn.reply ++ (next turn.reply).unitFailures turn.world

theorem unitFailures_bind (program : Program α) (f : α → Program β) (w : World Tables) :
    (program >>= f).unitFailures w = program.unitFailures w ++
      match (program.run w).result with
      | .ok a => (f a).unitFailures (program.run w).world
      | .error _ => [] := by
  change (program.bind f).unitFailures w = _
  induction program generalizing w with
  | done result => cases result <;> rfl
  | ask request next ih => simp only [bind, unitFailures, ih, run, List.append_assoc]

/-- Work whose calls are steps of their own asks for no unit. -/
@[simp]
theorem unitFailures_ofWork (work : Work α) (w : World Tables) :
    (ofWork work).unitFailures w = [] := by
  induction work generalizing w with
  | done result => cases result <;> rfl
  | call c next ih =>
    simp only [ofWork, unitFailures, Request.unitFailure, List.nil_append]
    cases (w.answer (.store c)).reply with
    | ok reply => exact ih reply _
    | error e => rfl
  | clock next ih =>
    simp only [ofWork, unitFailures, Request.unitFailure, List.nil_append]
    exact ih _ _

/-- Run alone the program comes to this result and this world, and none of its units of work
fails. -/
structure Smooth (program : Program α) (w : World Tables) (result : Except Failure α)
    (after : World Tables) : Prop where
  result : (program.run w).result = result
  world : (program.run w).world = after
  units : program.unitFailures w = []

section

variable {w between after : World Tables} {result : Except Failure β} {program : Program α}
  {f : α → Program β}

/-- A program goes on where its first part ended. -/
theorem Smooth.bind {a : α} (hfirst : program.Smooth w (.ok a) between)
    (hrest : (f a).Smooth between result after) : (program >>= f).Smooth w result after where
  result := by simp only [run_bind, Run.andThen, hfirst.result, hfirst.world, hrest.result]
  world := by simp only [run_bind, Run.andThen, hfirst.result, hfirst.world, hrest.world]
  units := by
    simp only [unitFailures_bind, hfirst.result, hfirst.world, hfirst.units, hrest.units,
      List.append_nil]

/-- A failure of the first part is the end. -/
theorem Smooth.bind_error {e : Failure} (hfirst : program.Smooth w (.error e) after) :
    (program >>= f).Smooth w (.error e) after where
  result := by simp only [run_bind, Run.andThen, hfirst.result]
  world := by simp only [run_bind, Run.andThen, hfirst.result, hfirst.world]
  units := by
    simp only [unitFailures_bind, hfirst.result, hfirst.units, List.append_nil]

theorem smooth_now : (ofWork Work.now).Smooth w (.ok w.clock) w := ⟨rfl, rfl, rfl⟩

/-- A call that only looks at the tables. -/
theorem smooth_look {call : StoreCall α} {reply : α}
    (h : w.store.perform call = .ok (reply, w.store)) :
    (ofWork (Work.perform call)).Smooth w (.ok reply) w := by
  have hrun : (Work.perform call).run w.clock w.store = ⟨.ok reply, [], w.store⟩ := by
    rw [Work.run_perform, Tables.perform_eq, h]
  exact ⟨by rw [run_reading hrun, Failure.ofResult], by rw [run_reading hrun],
    unitFailures_ofWork _ w⟩

theorem smooth_ofInput_ok {checked : Except InvalidInput α} {a : α} (h : checked = .ok a) :
    (ofWork (Work.ofInput checked)).Smooth w (.ok a) w := by
  subst h
  exact ⟨rfl, rfl, rfl⟩

theorem smooth_ofInput_error {checked : Except InvalidInput α} {reason : InvalidInput}
    (h : checked = .error reason) :
    (ofWork (Work.ofInput checked)).Smooth w (.error (.error (.ofInput reason))) w := by
  subst h
  exact ⟨rfl, rfl, rfl⟩

theorem smooth_require_true {condition : Bool} (h : condition = true) {e : TeamError} :
    (ofWork (Work.require condition e)).Smooth w (.ok ()) w := by
  subst h
  exact ⟨rfl, rfl, rfl⟩

theorem smooth_require_false {condition : Bool} (h : condition = false) {e : TeamError} :
    (ofWork (Work.require condition e)).Smooth w (.error (.error e)) w := by
  subst h
  exact ⟨rfl, rfl, rfl⟩

theorem smooth_log (line : LogLine) : (log line).Smooth w (.ok ()) w := ⟨rfl, rfl, rfl⟩

theorem smooth_pure (a : α) : (pure a : Program α).Smooth w (.ok a) w := ⟨rfl, rfl, rfl⟩

/-- A unit of work that succeeds is committed. -/
theorem smooth_atomically {unit : UnitOfWork α} {reply : α} {s : Tables}
    (h : unit.work.Gives w.clock w.store reply s) :
    (atomically unit).Smooth w (.ok reply) { w with store := s } := by
  obtain ⟨log, hanswer⟩ : ∃ log, w.answer (.atomically unit) =
      ⟨.ok reply, log, { w with store := s }⟩ := ⟨_, World.answer_atomically_of_gives unit h⟩
  constructor <;>
    simp only [atomically, run, unitFailures, hanswer, Request.unitFailure] <;> rfl

end

end Program

namespace CreateTeam

/-! ## Obstacles -/

/-- The name without the blanks around it. -/
def trimmed (input : CreateTeam) : String :=
  String.ofList (Text.trim input.name.toList)

/-- The limit that is given, or the configured one. -/
def limit (input : CreateTeam) (config : Config) : UInt32 :=
  input.memberLimit.getD config.defaultMemberLimit

/-- What stands in the way of the name itself. -/
def nameObstacles (input : CreateTeam) : List Obstacle :=
  match TeamName.validate input.name with
  | .error reason => [⟨true, .ofInput reason⟩]
  | .ok _ => []

/-- All that may stand in the way of a creation, in the order in which it counts. -/
def obstacles (input : CreateTeam) (config : Config) (s : Tables) : List Obstacle :=
  input.nameObstacles ++
    [⟨input.limit config = 0, .invalid Team.limitTooSmall⟩,
      ⟨∃ t ∈ s.teams, t.status = .active ∧ t.ownerId = input.ownerId ∧
        t.slug = slugify input.trimmed, .slugTaken (slugify input.trimmed)⟩]

/-! ## The new rows -/

/-- The team as it is created at a time, under an id. -/
def founded (input : CreateTeam) (config : Config) (id : Int) (now : Instant) : Team :=
  { id
    ownerId := input.ownerId
    name := input.trimmed
    slug := slugify input.trimmed
    description := input.description
    visibility := input.visibility
    memberLimit := input.limit config
    status := .active
    createdAt := now
    updatedAt := now }

/-- What a creation comes to that meets no obstacle: an active team under an id that no row has,
and its owner's membership, and nothing else changes. -/
structure Founds (input : CreateTeam) (config : Config) (w : World Tables) (run : Run Tables Team)
    (team : Team) : Prop where
  made : team = input.founded config team.id w.clock
  fresh_team : ∀ t ∈ w.store.teams, t.id < team.id
  fresh_member : ∀ m ∈ w.store.members, m.teamId < team.id
  fresh_invitation : ∀ i ∈ w.store.invitations, i.teamId < team.id
  result : run.result = .ok team
  world : ∃ before after, w.store.members = before ++ after ∧
    run.world = { w with store := { w.store with
      teams := w.store.teams ++ [team]
      lastTeamId := team.id
      members := before ++ ⟨team.id, input.ownerId, .owner, w.clock, w.clock⟩ :: after } }

/-- The verdict on a creation: if it is not refused, it founds a team. -/
def Verdict (input : CreateTeam) (config : Config) (w : World Tables) (run : Run Tables Team) :
    Prop :=
  run.DecidedBy w (input.obstacles config w.store) <| ∃ team, input.Founds config w run team

end CreateTeam

namespace Tables

variable {s s' : Tables}

/-- A new entry stands between others. -/
theorem insertBefore_between {α : Type} (comesBefore : α → α → Bool) (entry : α) (l : List α) :
    ∃ before after, l = before ++ after ∧
      insertBefore comesBefore entry l = before ++ entry :: after := by
  induction l with
  | nil => exact ⟨[], [], rfl, rfl⟩
  | cons head tail ih =>
    unfold insertBefore
    split
    · exact ⟨[], head :: tail, rfl, rfl⟩
    · obtain ⟨before, after, htail, hinserted⟩ := ih
      exact ⟨head :: before, after, congrArg _ htail, congrArg _ hinserted⟩

/-- A new member stands between the others. -/
theorem addMember_between {draft : MemberDraft} {member : Member}
    (h : s.addMember draft = .ok (member, s')) :
    ∃ before after, s.members = before ++ after ∧
      s' = { s with members := before ++ draft.member :: after } := by
  unfold addMember at h
  split at h
  · cases h
  · cases h
    obtain ⟨before, after, hsplit, hinserted⟩ := insertBefore_between
      (fun a b : Member => keyBefore a.teamId a.userId b.teamId b.userId) draft.member s.members
    exact ⟨before, after, hsplit, by rw [hinserted]⟩

/-- The look-up by slug finds nothing exactly if no active team of the owner has the slug. -/
theorem findTeamBySlug_none {owner : Int} {slug : String} :
    s.findTeamBySlug owner slug = none ↔
      ¬ ∃ t ∈ s.teams, t.status = .active ∧ t.ownerId = owner ∧ t.slug = slug := by
  simp [findTeamBySlug, Team.isActive]

/-- Every member is of a team with an id that was given out. -/
theorem Owned.members_le (ho : s.Owned) (hk : s.Keyed) {member : Member}
    (hmember : member ∈ s.members) : member.teamId ≤ s.lastTeamId := by
  obtain ⟨team, hteam, hid, -⟩ := ho.roles member hmember
  exact hid ▸ hk.teams_le team hteam

/-- So is every invitation. -/
theorem Offered.invitations_le (h : s.Offered) (hk : s.Keyed) {invitation : Invitation}
    (hinvitation : invitation ∈ s.invitations) : invitation.teamId ≤ s.lastTeamId := by
  obtain ⟨team, hteam, hid⟩ := h.teams invitation hinvitation
  exact hid ▸ hk.teams_le team hteam

end Tables

/-! ## The program -/

/-- Under a slug that is free a team and its owner's membership are stored: the store refuses
neither of them. -/
theorem UnitOfWork.foundTeam_writes {s : Tables} (hk : s.Keyed) (ho : s.Owned) (draft : TeamDraft)
    (hfree : s.findTeamBySlug draft.ownerId draft.slug = none) (time : Instant) :
    ∃ s' before after, (foundTeam draft).Gives time s (draft.team (s.lastTeamId + 1)) s' ∧
      s.members = before ++ after ∧
      s' = { s with
        teams := s.teams ++ [draft.team (s.lastTeamId + 1)]
        lastTeamId := s.lastTeamId + 1
        members := before ++
          ⟨s.lastTeamId + 1, draft.ownerId, .owner, draft.createdAt, draft.createdAt⟩ :: after } := by
  obtain ⟨s', hgives, -⟩ : ∃ s', (foundTeam draft).Gives time s _ s' ∧ _ :=
    foundTeam_free hk ho hfree
  obtain ⟨founded, member, hcreate, hadd⟩ := foundTeam_gives.mp hgives
  obtain ⟨-, -, rfl⟩ := Tables.createTeam_ok hcreate
  obtain ⟨before, after, hsplit, hs'⟩ := Tables.addMember_between hadd
  exact ⟨s', before, after, hgives, hsplit, hs'⟩

namespace CreateTeam

variable {input : CreateTeam} {config : Config} {w : World Tables}

/-- A creation that meets an obstacle fails with it, before any unit of work is asked for. -/
theorem createTeam_refused {failure : TeamError}
    (hfirst : Obstacle.first (input.obstacles config w.store) = some failure) :
    (createTeam config input).Smooth w (.error (.error failure)) w := by
  unfold obstacles nameObstacles at hfirst
  cases hvalid : TeamName.validate input.name with
  | error reason =>
    simp only [hvalid, List.cons_append, Obstacle.first_cons, if_true, Option.some.injEq] at hfirst
    subst hfirst
    exact .bind_error (Program.smooth_ofInput_error hvalid)
  | ok name =>
    obtain rfl : input.trimmed = name := TeamName.validate_trim hvalid
    simp only [hvalid, List.nil_append, Obstacle.first_cons, Obstacle.first_nil, decide_eq_true_eq]
      at hfirst
    refine .bind (Program.smooth_ofInput_ok hvalid) ?_
    split at hfirst
    · rename_i hlimit
      cases hfirst
      exact .bind_error (Program.smooth_require_false (decide_eq_false (not_not_intro hlimit)))
    · rename_i hlimit
      refine .bind (Program.smooth_require_true (decide_eq_true hlimit)) ?_
      split at hfirst
      · rename_i htaken
        cases hfirst
        refine .bind (Program.smooth_look rfl) (.bind_error (Program.smooth_require_false ?_))
        rw [Option.isNone_eq_false_iff, ← Option.ne_none_iff_isSome]
        exact fun hnone => Tables.findTeamBySlug_none.mp hnone htaken
      · cases hfirst

/-- What a creation that meets no obstacle has found. -/
theorem obstacles_none {s : Tables} (hfirst : Obstacle.first (input.obstacles config s) = none) :
    TeamName.validate input.name = .ok input.trimmed ∧ input.limit config ≠ 0 ∧
      s.findTeamBySlug input.ownerId (slugify input.trimmed) = none := by
  unfold obstacles nameObstacles at hfirst
  cases hvalid : TeamName.validate input.name with
  | error reason => simp [hvalid] at hfirst
  | ok name =>
    obtain rfl : input.trimmed = name := TeamName.validate_trim hvalid
    simp only [hvalid, List.nil_append, Obstacle.first_cons_eq_none, decide_eq_false_iff_not]
      at hfirst
    obtain ⟨hlimit, hfree, -⟩ := hfirst
    exact ⟨rfl, hlimit, Tables.findTeamBySlug_none.mpr hfree⟩

/-- A creation that meets none founds the team. -/
theorem createTeam_granted (hk : w.store.Keyed) (ho : w.store.Owned) (hoffered : w.store.Offered)
    (hfirst : Obstacle.first (input.obstacles config w.store) = none) :
    ∃ team, input.Founds config w ((createTeam config input).run w) team ∧
      (createTeam config input).unitFailures w = [] := by
  obtain ⟨hvalid, hlimit, hfree⟩ := obstacles_none hfirst
  obtain ⟨s', before, after, hgives, hsplit, hs'⟩ :=
    UnitOfWork.foundTeam_writes hk ho (input.draft config input.trimmed w.clock) hfree w.clock
  have hrun : (createTeam config input).Smooth w
      (.ok (input.founded config (w.store.lastTeamId + 1) w.clock)) { w with store := s' } := by
    unfold createTeam
    refine .bind (Program.smooth_ofInput_ok hvalid) ?_
    refine .bind (Program.smooth_require_true (decide_eq_true hlimit)) ?_
    -- nothing changes between this look and the writing, so the slug that is free stays free
    refine .bind (Program.smooth_look rfl) ?_
    refine .bind (Program.smooth_require_true (Option.isNone_iff_eq_none.mpr hfree)) ?_
    refine .bind Program.smooth_now ?_
    refine .bind (Program.smooth_atomically hgives) ?_
    exact .bind (Program.smooth_log _) (Program.smooth_pure _)
  have hnext : ∀ id, id ≤ w.store.lastTeamId → id < w.store.lastTeamId + 1 := by omega
  refine ⟨input.founded config (w.store.lastTeamId + 1) w.clock, ?_, hrun.units⟩
  exact
    { made := rfl
      fresh_team := fun t ht => hnext _ (hk.teams_le t ht)
      fresh_member := fun m hm => hnext _ (ho.members_le hk hm)
      fresh_invitation := fun i hi => hnext _ (hoffered.invitations_le hk hi)
      result := hrun.result
      world := ⟨before, after, hsplit, hs' ▸ hrun.world⟩ }

/-- A creation comes to its verdict, and none of its units of work fails. -/
theorem createTeam_verdict (hk : w.store.Keyed) (ho : w.store.Owned) (hoffered : w.store.Offered)
    (input : CreateTeam) (config : Config) :
    input.Verdict config w ((createTeam config input).run w) ∧
      (createTeam config input).unitFailures w = [] := by
  unfold Verdict Run.DecidedBy
  cases hfirst : Obstacle.first (input.obstacles config w.store) with
  | some failure =>
    obtain ⟨hresult, hworld, hunits⟩ := createTeam_refused hfirst
    exact ⟨⟨hresult, hworld⟩, hunits⟩
  | none =>
    obtain ⟨team, hfounds, hunits⟩ := createTeam_granted hk ho hoffered hfirst
    exact ⟨⟨team, hfounds⟩, hunits⟩

end CreateTeam

/-- In every world that calls can make, running together or one after another, a creation comes
to its verdict: it is refused for the first of its obstacles that stands, or it founds a team. No
unit of work fails on the way. -/
theorem Pool.creation_verdict (clock : Instant) (random : RandomSource) (history : List Event)
    (config : Config) (input : CreateTeam) :
    let w := ((start clock random).run history).world
    let program := (Action.createTeam input).program config
    input.Verdict config w (program.run w) ∧ program.unitFailures w = [] := by
  intro w program
  obtain ⟨hk, ho⟩ := (fits_start clock random history).inv
  have hoffered := (offered_fits clock random history).inv.2
  exact CreateTeam.createTeam_verdict hk ho hoffered input config

end Roster
