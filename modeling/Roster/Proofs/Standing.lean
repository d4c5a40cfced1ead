import Roster.Proofs.Checks
import Roster.Proofs.Invariant

/-!
# What changes of memberships come to

A change of a role and a removal look for the same things in another order: whoever changes a role
must be allowed to before the member is looked for, and whoever removes only after that, since
members may always remove themselves.

* `Tables.roleObstacles`, `Tables.removalObstacles` — what may stand in the way, in the order in
  which it counts;
* `Tables.RowAt` — the row of a member, which has no other (`Tables.Keyed.rowAt`), with
  `Tables.RowAt.setRole` and `Tables.RowAt.removeMember` — what becomes of it;
* `run_changeRole`, `run_remove` — what the rules come to upon keyed tables;
* `RoleVerdict`, `RemovalVerdict` — what is to come of the actions, and `Pool.standing_verdict`
  that it does, in every world that calls can make; whoever leaves removes themselves.
-/

namespace Roster

namespace Tables

/-! ## Obstacles -/

/-- The user is the owner of the team, by the role that is stored. -/
def IsOwner (s : Tables) (team user : Int) : Prop :=
  ∃ m ∈ s.members, m.teamId = team ∧ m.userId = user ∧ m.role = .owner

instance (s : Tables) (team user : Int) : Decidable (s.IsOwner team user) :=
  inferInstanceAs (Decidable (∃ m ∈ s.members, _))

variable (s : Tables) (team target requester : Int)

/-- What the rules have against a change of a role. -/
def changeObstacles (role : Role) : List Obstacle :=
  [⟨¬ s.Manages team requester, .permissionDenied⟩,
    ⟨!s.isMember team target, .memberNotFound team target⟩,
    ⟨s.IsOwner team target, .ownerRoleFixed⟩,
    ⟨role = .owner, .onlyOwnerTransfers⟩]

/-- What the rules have against a removal. -/
def departureObstacles : List Obstacle :=
  [⟨!s.isMember team target, .memberNotFound team target⟩,
    ⟨s.IsOwner team target, .ownerCannotGo⟩,
    ⟨target ≠ requester ∧ ¬ s.Manages team requester, .permissionDenied⟩]

/-- All that may stand in the way of a change of a role, in the order in which it counts. -/
def roleObstacles (role : Role) : List Obstacle :=
  ⟨(s.findTeam team).isNone, .teamNotFound team⟩ :: s.changeObstacles team target requester role

/-- All that may stand in the way of a removal, in the order in which it counts. -/
def removalObstacles : List Obstacle :=
  ⟨(s.findTeam team).isNone, .teamNotFound team⟩ :: s.departureObstacles team target requester

variable {s} {team target requester}

/-- In keyed tables the owner is found at the owner's role. -/
theorem isOwner_iff (hk : s.Keyed) {member : Member}
    (hfound : s.findMember team target = some member) :
    s.IsOwner team target ↔ member.role = .owner := by
  obtain ⟨hmem, hteam, huser⟩ := findMember_some hfound
  constructor
  · rintro ⟨other, hother, hteam', huser', hrole⟩
    rwa [← hk.member_eq hother hmem (hteam'.trans hteam.symm) (huser'.trans huser.symm)]
  · intro hrole
    exact ⟨member, hmem, hteam, huser, hrole⟩

/-! ## The row of a member -/

/-- The row of a member, between the rows of others. -/
structure RowAt (s : Tables) (team user : Int) (member : Member) (before after : List Member) :
    Prop where
  split : s.members = before ++ member :: after
  isOf : member.isOf team user = true
  before : ∀ m ∈ before, m.isOf team user = false
  after : ∀ m ∈ after, m.isOf team user = false

/-- A member has one row. -/
theorem Keyed.rowAt (hk : s.Keyed) {member : Member}
    (hfound : s.findMember team target = some member) :
    ∃ before after, s.RowAt team target member before after := by
  obtain ⟨hmem, hteam, huser⟩ := findMember_some hfound
  obtain ⟨before, after, hsplit, hbefore, hafter⟩ := exists_between hk.members hmem
  have hother : ∀ m : Member, (m.teamId, m.userId) ≠ (member.teamId, member.userId) →
      m.isOf team target = false := by
    intro m hne
    rw [Bool.eq_false_iff]
    intro hof
    obtain ⟨hteam', huser'⟩ := Member.isOf_iff.mp hof
    exact hne (Prod.ext (hteam'.trans hteam.symm) (huser'.trans huser.symm))
  exact ⟨before, after, hsplit, Member.isOf_iff.mpr ⟨hteam, huser⟩,
    fun m hm => hother m (hbefore m hm), fun m hm => hother m (hafter m hm)⟩

section

variable {member : Member} {before after : List Member}

theorem RowAt.findMember (h : s.RowAt team target member before after) :
    s.findMember team target = some member := by
  have hnone : before.find? (·.isOf team target) = none := by
    simpa using h.before
  rw [Tables.findMember, h.split, List.find?_append, hnone, Option.none_or]
  simp [h.isOf]

/-- A role is given to the row of the member. -/
theorem RowAt.setRole (h : s.RowAt team target member before after) (role : Role) (now : Instant) :
    s.setRole team target role now = .ok ({ member with role, updatedAt := now },
      { s with members := before ++ { member with role, updatedAt := now } :: after }) := by
  -- the rows of others are kept
  have hkept : ∀ part : List Member, (∀ m ∈ part, m.isOf team target = false) →
      (part.map fun m => if m.isOf team target then { member with role, updatedAt := now } else m) =
        part := by
    intro part hpart
    calc
      _ = part.map id := List.map_congr_left fun m hm => by simp [hpart m hm]
      _ = part := List.map_id part
  simp only [Tables.setRole, h.findMember, h.split, List.map_append, List.map_cons, h.isOf, if_true,
    hkept before h.before, hkept after h.after]

/-- The row of a member who is removed is left out. -/
theorem RowAt.removeMember (h : s.RowAt team target member before after) :
    s.removeMember team target = .ok ((), { s with members := before ++ after }) := by
  have hmember : s.isMember team target = true := by
    rw [← isSome_findMember, h.findMember]
    rfl
  have hkept : ∀ part : List Member, (∀ m ∈ part, m.isOf team target = false) →
      part.filter (fun m => !m.isOf team target) = part := by
    intro part hpart
    refine List.filter_eq_self.mpr ?_
    intro m hm
    rw [hpart m hm]
    rfl
  simp [Tables.removeMember, hmember, h.split, h.isOf, hkept before h.before, hkept after h.after]

end

end Tables

/-! ## The rules -/

section

variable {s : Tables} {team target requester : Int} {role : Role} {member : Member}
  {time : Instant}

/-- A member is looked up by the key. -/
theorem run_get (team user : Int) (time : Instant) (s : Tables) :
    (Membership.get team user).run time s =
      ⟨match s.findMember team user with
        | some member => .ok member
        | none => .error (.memberNotFound team user), [], s⟩ := by
  cases hfound : s.findMember team user <;>
    simp [Membership.get, Work.run_bind, Tables.perform_eq, Tables.perform, Tables.reading,
      Work.found, hfound]

/-- A change of a role that a manager asks for. The manager may give every role that gets so far,
so the check of that refuses nobody. -/
theorem run_changeRole_manager (hk : s.Keyed) (hmanages : s.Manages team requester)
    (hfound : s.findMember team target = some member) :
    (Membership.changeRole team target requester role).run time s =
      if member.role = .owner then ⟨.error .ownerRoleFixed, [], s⟩
      else if role = .owner then ⟨.error .onlyOwnerTransfers, [], s⟩
      else Store.perform (.setRole team target role time) s := by
  obtain ⟨acting, hacting, hrequire⟩ := run_require_manager hk .updateRole rfl hmanages time
  simp only [Membership.changeRole, Work.run_bind, run_get, hrequire, hfound, Outcome.andThen_ok]
  by_cases hkept : member.role = .owner
  · simp [hkept, Work.require]
  · by_cases hgiven : role = .owner
    · simp [hkept, hgiven, Work.require, Work.run_bind]
    · have hassigns := Role.mayAssign_iff.mpr ⟨hacting, hgiven⟩
      simp [hkept, hgiven, hassigns, Work.require, Work.run_bind]

/-- A change of a role fails with the first obstacle that stands, or it is written. -/
theorem run_changeRole (hk : s.Keyed) (team target requester : Int) (role : Role) (time : Instant) :
    (Membership.changeRole team target requester role).run time s =
      match Obstacle.first (s.changeObstacles team target requester role) with
      | some failure => ⟨.error failure, [], s⟩
      | none => Store.perform (.setRole team target role time) s := by
  simp only [Tables.changeObstacles, Obstacle.first_cons, Obstacle.first_nil, decide_eq_true_eq,
    ← Tables.isSome_findMember]
  by_cases hmanages : s.Manages team requester
  · cases hfound : s.findMember team target with
    | none =>
      obtain ⟨acting, -, hrequire⟩ := run_require_manager hk .updateRole rfl hmanages time
      simp [Membership.changeRole, Work.run_bind, run_get, hmanages, hrequire, hfound]
    | some member =>
      have howner := Tables.isOwner_iff hk hfound
      rw [run_changeRole_manager hk hmanages hfound]
      simp only [hmanages, howner, not_true_eq_false, if_false, Option.isSome_some, Bool.not_true,
        Bool.false_eq_true]
      split
      · rfl
      · split <;> rfl
  · have hrequire := run_require_other hk .updateRole rfl hmanages time
    simp [Membership.changeRole, Work.run_bind, hmanages, hrequire]

/-- A member who is not the owner is removed on behalf of themselves or of a manager. -/
theorem run_remove_member (hk : s.Keyed) (hfound : s.findMember team target = some member)
    (hkept : member.role ≠ .owner) (hmay : target = requester ∨ s.Manages team requester) :
    (Membership.remove team target requester).run time s =
      Store.perform (.removeMember team target) s := by
  by_cases hself : target = requester
  · subst hself
    simp [Membership.remove, Work.run_bind, run_get, hfound, hkept, Work.require]
  · obtain ⟨acting, -, hrequire⟩ :=
      run_require_manager hk .removeMember rfl (hmay.resolve_left hself) time
    simp [Membership.remove, Work.run_bind, run_get, hfound, hkept, hself, hrequire, Work.require]

/-- A removal fails with the first obstacle that stands, or it is written. -/
theorem run_remove (hk : s.Keyed) (team target requester : Int) (time : Instant) :
    (Membership.remove team target requester).run time s =
      match Obstacle.first (s.departureObstacles team target requester) with
      | some failure => ⟨.error failure, [], s⟩
      | none => Store.perform (.removeMember team target) s := by
  simp only [Tables.departureObstacles, Obstacle.first_cons, Obstacle.first_nil, decide_eq_true_eq,
    ← Tables.isSome_findMember]
  cases hfound : s.findMember team target with
  | none => simp [Membership.remove, Work.run_bind, run_get, hfound]
  | some member =>
    have howner := Tables.isOwner_iff hk hfound
    by_cases hkept : member.role = .owner
    · simp [Membership.remove, Work.run_bind, run_get, hfound, howner, hkept, Work.require]
    · by_cases hmay : target = requester ∨ s.Manages team requester
      · have hallowed : ¬ (target ≠ requester ∧ ¬ s.Manages team requester) := by tauto
        simp only [howner, hkept, hallowed, run_remove_member hk hfound hkept hmay, if_false,
          Option.isSome_some, Bool.not_true, Bool.false_eq_true]
      · obtain ⟨hself, hmanages⟩ := not_or.mp hmay
        have hrequire := run_require_other hk .removeMember rfl hmanages time
        simp [Membership.remove, Work.run_bind, run_get, hfound, howner, hkept, hself, hmanages,
          hrequire, Work.require]

end

/-! ## The actions -/

section

variable {w : World Tables} {team target requester : Int} {role : Role}

/-- The verdict on a change of a role: if it is not refused, the row of the member gets the role
and a new date, and nothing else changes. -/
def RoleVerdict (w : World Tables) (team target requester : Int) (role : Role)
    (run : Run Tables Member) : Prop :=
  run.DecidedBy w (w.store.roleObstacles team target requester role) <|
    ∃ member before after, w.store.RowAt team target member before after ∧
      run.result = .ok { member with role, updatedAt := w.clock } ∧
      run.world = { w with store := { w.store with
        members := before ++ { member with role, updatedAt := w.clock } :: after } }

/-- The verdict on a removal: if it is not refused, the row of the member is gone, and nothing else
changes. -/
def RemovalVerdict (w : World Tables) (team target requester : Int) (run : Run Tables Unit) :
    Prop :=
  run.DecidedBy w (w.store.removalObstacles team target requester) <|
    ∃ member before after, w.store.RowAt team target member before after ∧
      run.result = .ok () ∧
      run.world = { w with store := { w.store with members := before ++ after } }

/-- Where no obstacle stands in the way of a change of a role, there is a member. -/
theorem Tables.findMember_of_changeObstacles {s : Tables}
    (hfirst : Obstacle.first (s.changeObstacles team target requester role) = none) :
    ∃ member, s.findMember team target = some member := by
  rw [← Option.isSome_iff_exists, Tables.isSome_findMember]
  simp only [changeObstacles, Obstacle.first_cons_eq_none] at hfirst
  simpa using hfirst.2.1

theorem Tables.findMember_of_departureObstacles {s : Tables}
    (hfirst : Obstacle.first (s.departureObstacles team target requester) = none) :
    ∃ member, s.findMember team target = some member := by
  rw [← Option.isSome_iff_exists, Tables.isSome_findMember]
  simp only [departureObstacles, Obstacle.first_cons_eq_none] at hfirst
  simpa using hfirst.1

/-- A change of a role comes to its verdict. -/
theorem updateMemberRole_verdict (hk : w.store.Keyed) (team target requester : Int) (role : Role) :
    RoleVerdict w team target requester role
      ((updateMemberRole team target requester role).run w) := by
  unfold RoleVerdict Run.DecidedBy
  simp only [updateMemberRole, Program.run_bind, Program.liftM_work, Program.run_ofWork,
    run_requireTeam, Tables.roleObstacles, Obstacle.first_cons]
  cases hteam : w.store.findTeam team with
  | none => exact ⟨rfl, rfl⟩
  | some found =>
    simp only [World.adopt, Failure.ofResult, Run.andThen_ok, Program.run_bind, Program.run_ofWork,
      run_changeRole hk, Option.isNone_some, Bool.false_eq_true, if_false]
    cases hfirst : Obstacle.first (w.store.changeObstacles team target requester role) with
    | some failure => exact ⟨rfl, rfl⟩
    | none =>
      obtain ⟨member, hfound⟩ := Tables.findMember_of_changeObstacles hfirst
      obtain ⟨before, after, hrow⟩ := hk.rowAt hfound
      have hperform : w.store.perform (.setRole team target role w.clock) = _ :=
        hrow.setRole role w.clock
      simp only [Tables.perform_eq, hperform]
      exact ⟨member, before, after, hrow, rfl, rfl⟩

/-- A removal comes to its verdict. -/
theorem removeMember_verdict (hk : w.store.Keyed) (team target requester : Int) :
    RemovalVerdict w team target requester ((removeMember team target requester).run w) := by
  unfold RemovalVerdict Run.DecidedBy
  simp only [removeMember, Program.run_bind, Program.liftM_work, Program.run_ofWork,
    run_requireTeam, Tables.removalObstacles, Obstacle.first_cons]
  cases hteam : w.store.findTeam team with
  | none => exact ⟨rfl, rfl⟩
  | some found =>
    simp only [World.adopt, Failure.ofResult, Run.andThen_ok, Program.run_bind, Program.run_ofWork,
      run_remove hk, Option.isNone_some, Bool.false_eq_true, if_false]
    cases hfirst : Obstacle.first (w.store.departureObstacles team target requester) with
    | some failure => exact ⟨rfl, rfl⟩
    | none =>
      obtain ⟨member, hfound⟩ := Tables.findMember_of_departureObstacles hfirst
      obtain ⟨before, after, hrow⟩ := hk.rowAt hfound
      have hperform : w.store.perform (.removeMember team target) = _ := hrow.removeMember
      simp only [Tables.perform_eq, hperform]
      exact ⟨member, before, after, hrow, rfl, rfl⟩

/-- Whoever leaves removes themselves: only the log lines differ. -/
theorem leaveTeam_eq_removeMember (team user : Int) (w : World Tables) :
    ((leaveTeam team user).run w).result = ((removeMember team user user).run w).result ∧
      ((leaveTeam team user).run w).world = ((removeMember team user user).run w).world := by
  simp only [leaveTeam, removeMember, Membership.leave, Program.run_bind, Program.liftM_work,
    Program.run_ofWork, run_requireTeam]
  cases hteam : w.store.findTeam team with
  | none => exact ⟨rfl, rfl⟩
  | some found =>
    cases hremoved : ((Membership.remove team user user).run w.clock w.store).result <;>
      simp [World.adopt, Failure.ofResult, Run.andThen, Program.run_bind, hremoved]

end

/-- In every world that calls can make, running together or one after another, a change of a role
and a removal come to their verdicts, and to leave is to remove oneself. -/
theorem Pool.standing_verdict (clock : Instant) (random : RandomSource) (history : List Event)
    (config : Config) (team target requester : Int) (role : Role) :
    let w := ((start clock random).run history).world
    let changed := ((Action.updateMemberRole team target requester role).program config).run w
    let removed := ((Action.removeMember team target requester).program config).run w
    let left := ((Action.leaveTeam team target).program config).run w
    let gone := ((Action.removeMember team target target).program config).run w
    RoleVerdict w team target requester role changed ∧
      RemovalVerdict w team target requester removed ∧
      left.result = gone.result ∧ left.world = gone.world := by
  have hk := (start_tidy clock random history).regular.keyed
  exact ⟨updateMemberRole_verdict hk team target requester role,
    removeMember_verdict hk team target requester, leaveTeam_eq_removeMember team target _⟩

end Roster
