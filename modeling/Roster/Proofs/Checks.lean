import Roster.Proofs.Authority
import Roster.Proofs.Verdict

/-!
# Checks that calls share

What a check comes to depends on the tables alone, and a check changes nothing.

* `Obstacle.first_append` — obstacles that count one list after another, and `Run.DecidedBy` —
  what a run comes to that they may stand in the way of;
* `Program.run_reading` — work that only looks at the tables;
* `Tables.manages_iff` — who manages a team, by the look-up that calls make, and
  `run_require_manager`, `run_require_other` — what a call comes to that asks for it;
  `Role.mayAssign_iff` — which roles they give;
* `run_requireTeam` — a team that is active, or the failure;
* `Tables.Regular.slug_free` — the look-up by slug that a call makes tells what the store
  asks as it writes.
-/

namespace Roster

theorem Obstacle.first_append (obstacles more : List Obstacle) :
    first (obstacles ++ more) = (first obstacles).or (first more) := by
  simp only [first, List.find?_append, Option.map_or]

/-- The first obstacle that stands decides on a run: the run ends in its failure, and nothing has
changed. If none stands, the run comes to what is granted. -/
def Run.DecidedBy {α : Type} (run : Run Tables α) (w : World Tables) (obstacles : List Obstacle)
    (granted : Prop) : Prop :=
  match Obstacle.first obstacles with
  | some failure => run.result = .error (.error failure) ∧ run.world = w
  | none => granted

instance (s : Tables) (team user : Int) : Decidable (s.Manages team user) :=
  inferInstanceAs (Decidable (∃ m ∈ s.members, _))

namespace Program

variable {w : World Tables}

/-- Work that only looks at the tables leaves the world alone. -/
theorem run_reading {α : Type} {work : Work α} {result : Except TeamError α}
    (h : work.run w.clock w.store = ⟨result, [], w.store⟩) :
    (ofWork work).run w = ⟨Failure.ofResult result, [], w⟩ := by
  rw [run_ofWork, h]
  rfl

theorem run_ofWork_require (condition : Bool) (e : TeamError) :
    (ofWork (Work.require condition e)).run w =
      ⟨if condition then .ok () else .error (.error e), [], w⟩ := by
  cases condition <;> rfl

end Program

section

variable {s : Tables} {team user : Int} {permission : Permission}

/-! ## Managers -/

/-- What only a manager may do: more than looking, and less than deleting the team. -/
def Permission.isManagers (permission : Permission) : Bool :=
  permission ≠ .view && permission ≠ .deleteTeam

theorem Role.allows_iff (hmanagers : permission.isManagers = true) {role : Role} :
    role.allows permission = true ↔ role = .owner ∨ role = .admin := by
  cases permission <;> cases role <;> simp_all [Permission.isManagers, Role.allows]

/-- Managers may give every role but the owner's, and nobody else may give any. -/
theorem Role.mayAssign_iff {acting role : Role} :
    acting.mayAssign role = true ↔ (acting = .owner ∨ acting = .admin) ∧ role ≠ .owner := by
  cases acting <;> simp [Role.mayAssign]

/-- In keyed tables the manager of a team is found at a manager's role. -/
theorem Tables.manages_iff (hk : s.Keyed) :
    s.Manages team user ↔
      ∃ member, s.findMember team user = some member ∧
        (member.role = .owner ∨ member.role = .admin) := by
  constructor
  · rintro ⟨member, hmem, rfl, rfl, hrole⟩
    exact ⟨member, hk.findMember_of_mem hmem, hrole⟩
  · rintro ⟨member, hfound, hrole⟩
    obtain ⟨hmem, hteam, huser⟩ := findMember_some hfound
    exact ⟨member, hmem, hteam, huser, hrole⟩

/-- A manager has the permission. -/
theorem run_require_manager (hk : s.Keyed) (permission : Permission)
    (hmanagers : permission.isManagers = true) (hmanages : s.Manages team user) (time : Instant) :
    ∃ member, (member.role = .owner ∨ member.role = .admin) ∧
      (Membership.require team user permission).run time s = ⟨.ok member, [], s⟩ := by
  obtain ⟨member, hfound, hrole⟩ := (Tables.manages_iff hk).mp hmanages
  have hallows := (Role.allows_iff hmanagers).mpr hrole
  refine ⟨member, hrole, ?_⟩
  simp [Membership.require, Work.run_bind, Tables.perform_eq, Tables.perform, Tables.reading,
    Work.found, Work.require, hfound, hallows, -bind_pure_comp]

/-- Nobody else has. -/
theorem run_require_other (hk : s.Keyed) (permission : Permission)
    (hmanagers : permission.isManagers = true) (hother : ¬ s.Manages team user) (time : Instant) :
    (Membership.require team user permission).run time s =
      ⟨.error .permissionDenied, [], s⟩ := by
  cases hfound : s.findMember team user with
  | none =>
    simp [Membership.require, Work.run_bind, Tables.perform_eq, Tables.perform, Tables.reading,
      Work.found, hfound]
  | some member =>
    have hdenied : member.role.allows permission = false := by
      rw [Bool.eq_false_iff]
      intro hallows
      exact hother ((Tables.manages_iff hk).mpr
        ⟨member, hfound, (Role.allows_iff hmanagers).mp hallows⟩)
    simp [Membership.require, Work.run_bind, Tables.perform_eq, Tables.perform, Tables.reading,
      Work.found, Work.require, hfound, hdenied, -bind_pure_comp]

/-! ## Teams -/

/-- A team is required by its id. -/
theorem run_requireTeam (team : Int) (time : Instant) (s : Tables) :
    (requireTeam team).run time s =
      ⟨match s.findTeam team with
        | some found => .ok found
        | none => .error (.teamNotFound team), [], s⟩ := by
  cases hfound : s.findTeam team <;>
    simp [requireTeam, Work.run_bind, Tables.perform_eq, Tables.perform, Tables.reading,
      Work.found, hfound]

/-- The team that a look-up by slug gives, if any, is the excepted one exactly if no other
active team of the owner has the slug. -/
theorem Tables.Regular.slug_free (h : s.Regular) (owner : Int) (slug : String) (id : Int) :
    (s.findTeamBySlug owner slug).all (·.id = id) = !s.slugInUse owner slug (some id) := by
  rw [Bool.eq_iff_iff, Bool.not_eq_true', slugInUse_false]
  constructor
  · intro hall t ht hcandidate
    simp only [Bool.and_eq_true, decide_eq_true_eq] at hcandidate
    obtain ⟨⟨hactive, rfl⟩, rfl⟩ := hcandidate
    rw [h.findTeamBySlug_of_mem ht hactive] at hall
    exact congrArg some (of_decide_eq_true hall)
  · intro hfree
    cases hfound : s.findTeamBySlug owner slug with
    | none => rfl
    | some t =>
      have hcandidate := List.find?_some hfound
      have hid := hfree t (List.mem_of_find?_eq_some hfound) hcandidate
      exact decide_eq_true (Option.some.inj hid)

end

end Roster
