import Roster.Proofs.Checks
import Roster.Proofs.Invariant

/-!
# What an update comes to

An update is refused for the first of its obstacles that stands, and then nothing has changed,
or the row is written back with the given fields changed. Upon tables as calls leave them the
store never refuses what it writes.

* `UpdateTeam.obstacles` — what may stand in the way, in the order in which it counts;
* `UpdateTeam.amended` — the row with the given fields changed, and
  `UpdateTeam.amended_amended` — a second time changes nothing more;
* `Tables.Exact` — how calls leave the tables: regular, with every owner a member and every
  member counted;
* `run_applyName`, `run_applyLimit`, `UpdateTeam.run_apply_refused`,
  `UpdateTeam.run_apply_granted` — what the parts of the program come to;
* `UpdateTeam.Verdict` — what is to come of an update, and `Pool.update_verdict` that it does,
  in every world that calls can make.
-/

namespace Roster

namespace UpdateTeam

/-! ## Obstacles -/

/-- What stands in the way of a new name of a team: the name itself, or another active team of
the owner. -/
def nameObstacles (s : Tables) (team : Team) : Option String → List Obstacle
  | none => []
  | some given =>
    match TeamName.validate given with
    | .error reason => [⟨true, .ofInput reason⟩]
    | .ok name =>
      [⟨s.slugInUse team.ownerId (slugify name) (some team.id), .slugTaken (slugify name)⟩]

/-- What stands in the way of a new limit of a team: it has more members. -/
def limitObstacles (s : Tables) (team : Int) : Option UInt32 → List Obstacle
  | none => []
  | some limit =>
    [⟨limit.toNat < s.membersOf team,
      .invalid s!"member limit {limit} is below the current member count {s.membersOf team}"⟩]

/-- All that may stand in the way of an update, in the order in which it counts. -/
def obstacles (input : UpdateTeam) (s : Tables) : List Obstacle :=
  match s.findTeam input.teamId with
  | none => [⟨true, .teamNotFound input.teamId⟩]
  | some team =>
    ⟨¬ s.Manages team.id input.requesterId, .permissionDenied⟩ ::
      (nameObstacles s team input.name ++ limitObstacles s team.id input.memberLimit)

/-! ## The new row -/

/-- The name that is given, as it is stored: without the blanks around it. -/
def newName (input : UpdateTeam) : Option String :=
  input.name.map fun given => String.ofList (Text.trim given.toList)

/-- Whether no field is given. -/
def isEmpty (input : UpdateTeam) : Bool :=
  input.name.isNone && input.description.isNone && input.visibility.isNone &&
    input.memberLimit.isNone

/-- The row with the given fields changed: the slug goes with the name, and the row is dated
if any field is given. -/
def amended (input : UpdateTeam) (team : Team) (now : Instant) : Team :=
  { team with
    name := input.newName.getD team.name
    slug := (input.newName.map slugify).getD team.slug
    description := input.description.getD team.description
    visibility := input.visibility.getD team.visibility
    memberLimit := input.memberLimit.getD team.memberLimit
    updatedAt := if input.isEmpty then team.updatedAt else now }

variable {input : UpdateTeam} {team : Team} {s : Tables} {now : Instant}

/-- The fields that are given have their values already. -/
theorem amended_amended (input : UpdateTeam) (team : Team) (now : Instant) :
    input.amended (input.amended team now) now = input.amended team now := by
  have hgetD : ∀ {α : Type} (given : Option α) (old : α),
      given.getD (given.getD old) = given.getD old := by
    intro α given old
    cases given <;> rfl
  simp only [amended, hgetD]
  cases input.isEmpty <;> rfl

/-- The changes made one after another come to the same row. -/
theorem revise_newName (input : UpdateTeam) (team : Team) (now : Instant) :
    input.revise input.newName team now = input.amended team now := by
  have hisNone : input.name.isNone = input.newName.isNone := Option.isNone_map.symm
  rw [amended, isEmpty, hisNone]
  cases input.newName <;> cases hdescription : input.description <;>
    cases hvisibility : input.visibility <;> cases hlimit : input.memberLimit <;>
    simp [revise, hdescription, hvisibility, hlimit, applyDescription, applyVisibility,
      Team.rename, Team.describe, Team.setVisibility]

end UpdateTeam

/-! ## Tables as calls leave them -/

/-- Puts a record in the place of the team with its id. -/
def Tables.putTeam (s : Tables) (team : Team) : Tables :=
  { s with teams := s.teams.map fun t => if t.id = team.id then team else t }

/-- Regular tables with every owner a member and every member counted. -/
structure Tables.Exact (s : Tables) : Prop where
  regular : s.Regular
  owned : s.Owned
  counted : s.Counted

/-- Whatever happens from the start, the tables are exact. -/
theorem Pool.start_exact (clock : Instant) (random : RandomSource) (events : List Event) :
    ((start clock random).run events).world.store.Exact where
  regular := (start_tidy clock random events).regular
  owned := (counted_fits clock random events).inv.2.1
  counted := (counted_fits clock random events).inv.2.2

namespace Tables

variable {s : Tables} {team : Team}

/-- A team has its owner at least. -/
theorem Owned.membersOf_pos (ho : s.Owned) (hteam : team ∈ s.teams) : 0 < s.membersOf team.id := by
  obtain ⟨member, hmember, hof, -⟩ := ho.owners team hteam
  exact List.countP_pos_iff.mpr ⟨member, hmember, decide_eq_true hof⟩

/-- The store tells how many members a team has. -/
theorem Exact.countMembers (h : s.Exact) (team : Int) :
    (s.countMembers team).toNat = s.membersOf team := by
  rw [countMembers_toNat, Nat.min_eq_left (h.counted team)]

/-- No other active team of the owner has the slug of an active team. -/
theorem Regular.slugInUse_own (h : s.Regular) (hteam : team ∈ s.teams)
    (hactive : team.isActive = true) :
    s.slugInUse team.ownerId team.slug (some team.id) = false := by
  have hfree := h.slug_free team.ownerId team.slug team.id
  rw [h.findTeamBySlug_of_mem hteam hactive] at hfree
  simpa using hfree

/-- The store takes a record of an active team under a slug that no other team has. -/
theorem updateTeam_taken (hfound : (s.findTeam team.id).isSome)
    (hfree : s.slugInUse team.ownerId team.slug (some team.id) = false) :
    s.updateTeam team = .ok (team, s.putTeam team) := by
  have hnone : (s.findTeam team.id).isNone = false := by
    rw [Option.isNone_eq_false_iff, hfound]
  simp only [updateTeam, hnone, hfree, Bool.false_eq_true, if_false]
  rfl

/-- A record in the place of a team of the same id and owner leaves the tables exact. -/
theorem Exact.putTeam (h : s.Exact) {after : Team} (hteam : team ∈ s.teams)
    (hid : after.id = team.id) (howner : after.ownerId = team.ownerId)
    (htaken : s.updateTeam after = .ok (after, s.putTeam after)) : (s.putTeam after).Exact where
  regular := updateTeam_regular htaken h.regular
  owned := by
    refine h.owned.map_teams ?_ ?_
    · intro t _
      split
      · rename_i hsame
        exact hsame.symm
      · rfl
    · intro t ht
      split
      · rename_i hsame
        rw [h.regular.keyed.team_eq ht hteam (hsame.trans hid), howner]
      · rfl
  counted := h.counted

/-- The slugs of all other teams are as they were. -/
theorem slugInUse_putTeam (s : Tables) (team : Team) (owner : Int) (slug : String) :
    (s.putTeam team).slugInUse owner slug (some team.id) =
      s.slugInUse owner slug (some team.id) := by
  simp only [slugInUse, putTeam, List.any_map]
  congr 1
  funext t
  by_cases hid : t.id = team.id <;> simp [hid]

/-- Putting the same record once more changes nothing. -/
theorem putTeam_putTeam (s : Tables) (team : Team) :
    (s.putTeam team).putTeam team = s.putTeam team := by
  simp only [putTeam, List.map_map]
  congr 2
  funext t
  by_cases hid : t.id = team.id <;> simp [hid]

end Tables

/-! ## The parts of the program -/

section

variable {s : Tables} {input : UpdateTeam} {team : Team} {now time : Instant}

namespace UpdateTeam

/-- A new name is checked, and its slug must be free. -/
theorem run_applyName (hr : s.Regular) (input : UpdateTeam) (team : Team) (now time : Instant) :
    (applyName team now input.name).run time s =
      ⟨match Obstacle.first (nameObstacles s team input.name) with
        | some failure => .error failure
        | none => .ok (input.newName.elim team (team.rename · now)), [], s⟩ := by
  cases hname : input.name with
  | none => simp [applyName, nameObstacles, newName, hname]
  | some given =>
    cases hvalid : TeamName.validate given with
    | error reason => simp [applyName, nameObstacles, Work.run_bind, Work.ofInput, hvalid]
    | ok name =>
      have hfree : (s.findTeamBySlug (team.rename name now).ownerId
          (team.rename name now).slug).all (·.id = (team.rename name now).id) =
            !s.slugInUse team.ownerId (slugify name) (some team.id) :=
        hr.slug_free team.ownerId (slugify name) team.id
      simp only [applyName, nameObstacles, newName, hname, Option.map_some,
        TeamName.validate_trim hvalid, hvalid, Work.ofInput, Work.run_bind, Work.run_pure,
        Work.run_perform, Outcome.andThen_ok, Tables.perform_eq, Tables.perform, Tables.reading,
        hfree, Obstacle.first_cons, Obstacle.first_nil]
      cases s.slugInUse team.ownerId (slugify name) (some team.id) <;> rfl

/-- A new limit must not be below the number of members. -/
theorem run_applyLimit (hs : s.Exact) {id : Int} (hid : team.id = id) (hmember : 0 < s.membersOf id)
    (limit : Option UInt32) :
    (applyLimit team now limit).run time s =
      ⟨match Obstacle.first (limitObstacles s id limit) with
        | some failure => .error failure
        | none => .ok (limit.elim team fun limit =>
            { team with memberLimit := limit, updatedAt := now }), [], s⟩ := by
  cases limit with
  | none => simp [applyLimit, limitObstacles]
  | some limit =>
    have hcount := hs.countMembers id
    have hwording : toString (s.countMembers id) = toString (s.membersOf id) :=
      congrArg toString hcount
    have hperform : s.perform (.countMembers id) = .ok (s.countMembers id, s) := rfl
    have hle : s.countMembers id ≤ limit ↔ ¬ limit.toNat < s.membersOf id := by
      rw [UInt32.le_iff_toNat_le, hcount, Nat.not_lt]
    simp only [applyLimit, limitObstacles, Membership.count, Work.run_bind, Work.run_perform,
      Tables.perform_eq, hid, hperform, Outcome.andThen_ok, hwording, Obstacle.first_cons,
      Obstacle.first_nil, hle]
    by_cases hbelow : limit.toNat < s.membersOf id
    · simp [Work.require, hbelow]
    · -- the row refuses a limit of zero, which is below any number of members
      have hzero : limit ≠ 0 := by
        rintro rfl
        exact hbelow hmember
      simp [Work.require, Team.setMemberLimit, hid, hbelow, hzero, -bind_pure_comp]

/-- The store takes the new row, since its slug is the old one or was found free. -/
theorem updateTeam_amended (hr : s.Regular) (hteam : s.findTeam input.teamId = some team)
    (h : Obstacle.first (nameObstacles s team input.name) = none) (now : Instant) :
    s.updateTeam (input.amended team now) =
      .ok (input.amended team now, s.putTeam (input.amended team now)) := by
  obtain ⟨hmem, hid, hactive⟩ := Tables.findTeam_some hteam
  refine Tables.updateTeam_taken ?_ ?_
  · change (s.findTeam team.id).isSome = true
    rw [hid, hteam]
    rfl
  · change s.slugInUse team.ownerId ((input.newName.map slugify).getD team.slug) (some team.id) =
      false
    cases hname : input.name with
    | none =>
      rw [newName, hname]
      exact hr.slugInUse_own hmem (Team.isActive_iff.mpr hactive)
    | some given =>
      cases hvalid : TeamName.validate given with
      | error reason => simp [nameObstacles, hname, hvalid] at h
      | ok name =>
        simp only [nameObstacles, hname, hvalid, Obstacle.first_cons_eq_none] at h
        rw [newName, hname, Option.map_some, TeamName.validate_trim hvalid]
        exact h.1

/-- What an update of a manager's comes to. -/
theorem run_apply_manager (hs : s.Exact) (hteam : s.findTeam input.teamId = some team)
    (hmanages : s.Manages team.id input.requesterId) :
    input.apply.run time s =
      match Obstacle.first (nameObstacles s team input.name ++
        limitObstacles s team.id input.memberLimit) with
      | some failure => ⟨.error failure, [], s⟩
      | none => ⟨.ok (input.amended team time), [], s.putTeam (input.amended team time)⟩ := by
  obtain ⟨member, -, hmember⟩ :=
    run_require_manager hs.regular.keyed .updateTeam rfl hmanages time
  rw [Obstacle.first_append]
  simp only [apply, Work.run_bind, run_requireTeam, hteam, hmember, Work.run_now,
    run_applyName hs.regular, Outcome.andThen_ok, List.nil_append]
  cases hnamed : Obstacle.first (nameObstacles s team input.name) with
  | some failure => rfl
  | none =>
    have hid : (applyVisibility (applyDescription (input.newName.elim team (team.rename · time))
        time input.description) time input.visibility).id = team.id := by
      cases input.newName <;> simp [Team.rename]
    have hpos := hs.owned.membersOf_pos (Tables.findTeam_some hteam).1
    simp only [Work.run_bind, Outcome.andThen_ok, Option.none_or, run_applyLimit hs hid hpos]
    cases hlimited : Obstacle.first (limitObstacles s team.id input.memberLimit) with
    | some failure => rfl
    | none =>
      have hrevise := revise_newName input team time
      have hperform : s.perform (.updateTeam (input.amended team time)) = _ :=
        updateTeam_amended hs.regular hteam hnamed time
      rw [revise] at hrevise
      simp only [Outcome.andThen_ok, hrevise, Work.run_perform, Tables.perform_eq, hperform]
      rfl

/-- An update that meets an obstacle fails with it, before anything is written. -/
theorem run_apply_refused (hs : s.Exact) {failure : TeamError}
    (hfirst : Obstacle.first (input.obstacles s) = some failure) :
    input.apply.run time s = ⟨.error failure, [], s⟩ := by
  unfold obstacles at hfirst
  cases hteam : s.findTeam input.teamId with
  | none =>
    simp only [hteam, Obstacle.first_cons, if_true, Option.some.injEq] at hfirst
    simp [apply, Work.run_bind, run_requireTeam, hteam, hfirst]
  | some team =>
    simp only [hteam, Obstacle.first_cons, decide_eq_true_eq] at hfirst
    by_cases hmanages : s.Manages team.id input.requesterId
    · simp only [hmanages, not_true_eq_false, if_false] at hfirst
      simp only [run_apply_manager hs hteam hmanages, hfirst]
    · have hother := run_require_other hs.regular.keyed .updateTeam rfl hmanages time
      simp only [hmanages, not_false_eq_true, if_true, Option.some.injEq] at hfirst
      simp [apply, Work.run_bind, run_requireTeam, hteam, hother, hfirst]

/-- What an update that meets none has found. -/
theorem obstacles_none (hfirst : Obstacle.first (input.obstacles s) = none) :
    ∃ team, s.findTeam input.teamId = some team ∧ s.Manages team.id input.requesterId ∧
      Obstacle.first (nameObstacles s team input.name ++
        limitObstacles s team.id input.memberLimit) = none := by
  unfold obstacles at hfirst
  cases hteam : s.findTeam input.teamId with
  | none => simp [hteam] at hfirst
  | some team =>
    simp only [hteam, Obstacle.first_cons_eq_none, decide_eq_false_iff_not, not_not] at hfirst
    exact ⟨team, rfl, hfirst⟩

/-! ## The whole program -/

/-- An update writes its log line after it was applied. -/
theorem run_updateTeam (input : UpdateTeam) (w : World Tables) :
    (updateTeam input).run w =
      (w.adopt (input.apply.run w.clock w.store)).andThen fun team w =>
        ⟨.ok team, [.teamUpdated team.id input.requesterId], w⟩ := by
  simp only [updateTeam, Program.run_bind, Program.liftM_work, Program.run_ofWork]
  rfl

/-- What an update comes to that meets no obstacle: the row with the given fields changed, which
the store takes; no other row changes; and the same update would change nothing more. -/
structure Amends (input : UpdateTeam) (w : World Tables) (run : Run Tables Team) (team : Team) :
    Prop where
  found : w.store.findTeam input.teamId = some team
  limited : input.memberLimit ≠ some 0
  result : run.result = .ok (input.amended team w.clock)
  world : run.world = { w with store := w.store.putTeam (input.amended team w.clock) }
  taken : w.store.updateTeam (input.amended team w.clock) =
    .ok (input.amended team w.clock, run.world.store)
  again : ((updateTeam input).run run.world).result = run.result ∧
    ((updateTeam input).run run.world).world = run.world

/-- The verdict on an update: it ends in the failure of the first obstacle that stands, and
nothing has changed, or it amends the team. -/
def Verdict (input : UpdateTeam) (w : World Tables) (run : Run Tables Team) : Prop :=
  match Obstacle.first (input.obstacles w.store) with
  | some failure => run.result = .error (.error failure) ∧ run.world = w
  | none => ∃ team, input.Amends w run team

variable {w : World Tables}

/-- An update that meets no obstacle writes the new row. -/
theorem run_updateTeam_granted (hs : w.store.Exact)
    (hteam : w.store.findTeam input.teamId = some team)
    (hfirst : Obstacle.first (input.obstacles w.store) = none) :
    ((updateTeam input).run w).result = .ok (input.amended team w.clock) ∧
      ((updateTeam input).run w).world =
        { w with store := w.store.putTeam (input.amended team w.clock) } := by
  obtain ⟨team', hteam', hmanages, hrest⟩ := obstacles_none hfirst
  obtain rfl : team' = team := Option.some.inj (hteam'.symm.trans hteam)
  rw [run_updateTeam, run_apply_manager hs hteam hmanages, hrest]
  exact ⟨rfl, rfl⟩

/-- A limit of zero is always below the number of members. -/
theorem memberLimit_ne_zero (hs : w.store.Exact)
    (hfirst : Obstacle.first (input.obstacles w.store) = none) : input.memberLimit ≠ some 0 := by
  obtain ⟨team, hteam, -, hrest⟩ := obstacles_none hfirst
  have hpos := hs.owned.membersOf_pos (Tables.findTeam_some hteam).1
  intro hzero
  rw [hzero, Obstacle.first_append, Option.or_eq_none_iff] at hrest
  simp only [limitObstacles, Obstacle.first_cons_eq_none, decide_eq_false_iff_not] at hrest
  exact hrest.2.1 hpos

/-- Once the new row is there, the same update meets no obstacle. -/
theorem obstacles_putTeam (hs : s.Exact) (hteam : s.findTeam input.teamId = some team)
    (hfirst : Obstacle.first (input.obstacles s) = none) (now : Instant) :
    (s.putTeam (input.amended team now)).findTeam input.teamId = some (input.amended team now) ∧
      Obstacle.first (input.obstacles (s.putTeam (input.amended team now))) = none := by
  obtain ⟨team', hteam', hmanages, hrest⟩ := obstacles_none hfirst
  obtain rfl : team' = team := Option.some.inj (hteam'.symm.trans hteam)
  obtain ⟨-, hid, hactive⟩ := Tables.findTeam_some hteam
  have hnamed := hrest
  rw [Obstacle.first_append, Option.or_eq_none_iff] at hnamed
  have hwrite := updateTeam_amended hs.regular hteam hnamed.1 now
  have hfound := Tables.findTeam_updateTeam hwrite hactive
  have hfound' : (s.putTeam (input.amended team' now)).findTeam input.teamId =
      some (input.amended team' now) := hid ▸ hfound
  have hnames : nameObstacles (s.putTeam (input.amended team' now)) (input.amended team' now)
      input.name = nameObstacles s team' input.name := by
    unfold nameObstacles
    have hslug := fun slug =>
      Tables.slugInUse_putTeam s (input.amended team' now) team'.ownerId slug
    have hid' : (input.amended team' now).id = team'.id := rfl
    have howner : (input.amended team' now).ownerId = team'.ownerId := rfl
    simp only [hid', howner] at hslug ⊢
    simp only [hslug]
  refine ⟨hfound', ?_⟩
  unfold obstacles
  rw [hfound']
  simp only [hnames]
  rw [Obstacle.first_cons_eq_none]
  exact ⟨decide_eq_false (not_not_intro hmanages), hrest⟩

/-- An update comes to its verdict. -/
theorem updateTeam_verdict (hs : w.store.Exact) : input.Verdict w ((updateTeam input).run w) := by
  unfold Verdict
  cases hfirst : Obstacle.first (input.obstacles w.store) with
  | some failure =>
    rw [run_updateTeam, run_apply_refused hs hfirst]
    exact ⟨rfl, rfl⟩
  | none =>
    obtain ⟨team, hteam, -, hrest⟩ := obstacles_none hfirst
    rw [Obstacle.first_append, Option.or_eq_none_iff] at hrest
    obtain ⟨hresult, hworld⟩ := run_updateTeam_granted hs hteam hfirst
    have htaken := updateTeam_amended hs.regular hteam hrest.1 w.clock
    -- the same update again, in the world that the first one left
    obtain ⟨hteam', hfirst'⟩ := obstacles_putTeam hs hteam hfirst w.clock
    have hs' : (w.store.putTeam (input.amended team w.clock)).Exact :=
      hs.putTeam (Tables.findTeam_some hteam).1 rfl rfl htaken
    obtain ⟨hresult', hworld'⟩ := run_updateTeam_granted
      (w := { w with store := w.store.putTeam (input.amended team w.clock) }) hs' hteam' hfirst'
    rw [amended_amended] at hresult' hworld'
    rw [Tables.putTeam_putTeam] at hworld'
    exact ⟨team,
      { found := hteam
        limited := memberLimit_ne_zero hs hfirst
        result := hresult
        world := hworld
        taken := by rw [hworld, htaken]
        again := by
          rw [hworld, hresult]
          exact ⟨hresult', hworld'⟩ }⟩

end UpdateTeam

end

/-- In every world that calls can make, running together or one after another, an update comes
to its verdict: it is refused for the first of its obstacles that stands, or it changes the
given fields of the team's row and nothing else. -/
theorem Pool.update_verdict (clock : Instant) (random : RandomSource) (history : List Event)
    (config : Config) (input : UpdateTeam) :
    let w := ((start clock random).run history).world
    input.Verdict w (((Action.updateTeam input).program config).run w) := by
  intro w
  exact UpdateTeam.updateTeam_verdict (start_exact clock random history)

end Roster
