import Roster.Proofs.Pool

/-!
# One owner for every team

Whatever calls run together, a team has one membership at the owner's role from
its founding on, and it is that of the team's owner, who never changes. No call
checks this while it writes: the rules look at a row that was read earlier. It
holds because owner rows are only made together with a fresh team, and nobody
seen at another role can have become an owner by the time of the write.
-/

namespace Roster

/-- Ownership is kept by all that can happen. -/
theorem Rely.owned_governs : (Rely.among Tables.Owned).Governs :=
  Rely.among_governs
    (fun hinv hdeed => hdeed.owned (Rely.among_orderly _) (fun hinv => hinv.2) hinv)
    (fun _ _ ho => ho.of_eq rfl rfl) (fun _ ho => ho.of_eq rfl rfl)

namespace Pool

/-- Pools that start on an empty store keep their keys and their owners. -/
theorem fits_start (clock : Instant) (random : RandomSource) (events : List Event) :
    ((start clock random).run events).Fits (Rely.among Tables.Owned) :=
  (fits_run Rely.owned_governs (fits_nil ⟨Tables.empty_keyed, Tables.empty_owned⟩) events).1

/-- At any time every team, active or deleted, has exactly one membership at the
owner's role, and it is the owner's. At any later time the team is still there,
once, with the same owner. -/
theorem sole_owner (clock : Instant) (random : RandomSource) (events later : List Event) :
    let now := ((start clock random).run events).world.store
    let then_ := (((start clock random).run events).run later).world.store
    ∀ team ∈ now.teams,
      (∃ row, now.members.filter (fun m => m.teamId = team.id && m.role = .owner) = [row] ∧
        row.userId = team.ownerId) ∧
      ∃ kept ∈ then_.teams, kept.id = team.id ∧ kept.ownerId = team.ownerId ∧
        ∀ other ∈ then_.teams, other.id = team.id → other = kept := by
  intro now then_ team hteam
  have hfits := fits_start clock random events
  obtain ⟨hkeyed, howned⟩ := hfits.inv
  obtain ⟨hlater, hevolves⟩ := fits_run Rely.owned_governs hfits later
  refine ⟨howned.owner_row hkeyed hteam, ?_⟩
  -- teams are never dropped, and they keep their owners as tables evolve
  obtain ⟨kept, hkept, hid, howner, -⟩ := Tables.Evolves.teams hevolves team hteam
  refine ⟨kept, hkept, hid, howner, ?_⟩
  intro other hother hoid
  exact hlater.inv.1.team_eq hother hkept (hoid.trans hid.symm)

/-- Two users found a team each, in alternate steps; then the first tries to
leave theirs. -/
def twoFounders : List Event :=
  let founding (owner : Int) : Call := .act .default (.createTeam
    { ownerId := owner
      name := "Core"
      description := none
      visibility := .everyone
      memberLimit := none })
  [.begins (founding 7), .begins (founding 8), .proceeds 0, .proceeds 1, .proceeds 1, .proceeds 0,
    .proceeds 0, .proceeds 1, .begins (.membership (.leave 1 7)), .proceeds 2, .proceeds 2]

theorem sole_owner_of_two_founders :
    let tables := ((start .epoch .sequence).run twoFounders).world.store
    let team : Team :=
      ⟨1, 7, "Core", "core", none, .everyone, 5, .active, .epoch, .epoch⟩
    team ∈ tables.teams ∧
      ∃ row, tables.members.filter (fun m => m.teamId = 1 && m.role = .owner) = [row] ∧
        row.userId = 7 := by
  intro tables team
  have hteam : team ∈ tables.teams := by decide +kernel
  exact ⟨hteam, (sole_owner .epoch .sequence twoFounders [] team hteam).1⟩

end Pool

end Roster
