import Roster.Proofs.Program.Laws

/-!
# What a unit of work gives

`Work.Gives` says that a piece of work on given tables succeeds, with which
reply, and which tables it leaves. One equivalence for each kind of step opens
it, and with them the units of work come down to the calls that they make:

* `foundTeam_gives` — a team and its owner's membership;
* `enrolMember_gives` — room, a membership and an accepted invitation;
* `dissolveTeam_gives` — a deleted team and its revoked invitations.
-/

namespace Roster

namespace Work

variable {α β : Type}

/-- The work succeeds on the tables `s`: it replies `reply` and leaves `s'`. -/
def Gives (work : Work α) (time : Instant) (s : Tables) (reply : α) (s' : Tables) : Prop :=
  (work.run time s).result = .ok reply ∧ (work.run time s).store = s'

variable {time : Instant} {s s' : Tables}

@[simp]
theorem gives_pure {a reply : α} :
    (pure a : Work α).Gives time s reply s' ↔ a = reply ∧ s = s' := by
  simp [Gives]

@[simp]
theorem gives_refuse {e : TeamError} {reply : α} :
    (refuse e : Work α).Gives time s reply s' ↔ False := by
  simp [Gives]

@[simp]
theorem gives_now {reply : Instant} : now.Gives time s reply s' ↔ time = reply ∧ s = s' := by
  simp [Gives]

@[simp]
theorem gives_perform {call : StoreCall α} {reply : α} :
    (perform call).Gives time s reply s' ↔ s.perform call = .ok (reply, s') := by
  cases h : s.perform call with
  | error e => simp [Gives, Tables.perform_eq, h]
  | ok done => simp [Gives, Tables.perform_eq, h, Prod.ext_iff]

@[simp]
theorem gives_require {condition : Bool} {e : TeamError} {reply : Unit} :
    (require condition e).Gives time s reply s' ↔ condition = true ∧ s = s' := by
  cases condition <;> simp [require]

@[simp]
theorem gives_found {e : TeamError} {found : Option α} {reply : α} :
    (Work.found e found).Gives time s reply s' ↔ found = some reply ∧ s = s' := by
  cases found <;> simp [Work.found]

@[simp]
theorem gives_bind {work : Work α} {f : α → Work β} {reply : β} :
    (work >>= f).Gives time s reply s' ↔
      ∃ a between, work.Gives time s a between ∧ (f a).Gives time between reply s' := by
  unfold Gives
  rw [run_bind]
  cases h : work.run time s with
  | mk result log store =>
    cases result with
    | error e => simp
    | ok a =>
      simp only [Outcome.andThen_ok, Except.ok.injEq]
      constructor
      · intro hrest
        exact ⟨a, store, ⟨rfl, rfl⟩, hrest⟩
      · rintro ⟨_, _, ⟨rfl, rfl⟩, hrest⟩
        exact hrest

end Work

namespace UnitOfWork

variable {time : Instant} {s s' : Tables}

/-- A team is founded by storing it and then its owner's membership. -/
theorem foundTeam_gives {draft : TeamDraft} {team : Team} :
    (foundTeam draft).Gives time s team s' ↔
      ∃ founded member, s.createTeam draft = .ok (team, founded) ∧
        founded.addMember ⟨team.id, team.ownerId, .owner, team.createdAt⟩ = .ok (member, s') := by
  simp only [foundTeam, Membership.addOwner, Work.gives_bind, Work.gives_perform, Work.gives_pure,
    Tables.perform]
  constructor
  · rintro ⟨team', founded, hcreate, member, _, hadd, rfl, rfl⟩
    exact ⟨founded, member, hcreate, hadd⟩
  · rintro ⟨founded, member, hcreate, hadd⟩
    exact ⟨team, founded, hcreate, member, s', hadd, rfl, rfl⟩

/-- A user is enrolled in an active team with room, at a role that is not the
owner's, and the pending invitation is accepted with it. -/
theorem enrolMember_gives {invitation : Invitation} {user : Int} {member : Member} :
    (enrolMember invitation user).Gives time s member s' ↔
      ∃ team joined accepted, s.findTeam invitation.teamId = some team ∧
        s.countMembers team.id < team.memberLimit ∧ invitation.role ≠ .owner ∧
        s.addMember ⟨team.id, user, invitation.role, time⟩ = .ok (member, joined) ∧
        joined.settleInvitation invitation.id .accepted time = .ok (some accepted, s') := by
  simp only [enrolMember, Membership.count, Membership.add, Work.gives_bind, Work.gives_perform,
    Work.gives_pure, Work.gives_found, Work.gives_require, Work.gives_now, Tables.perform,
    Tables.reading, Except.ok.injEq, Prod.mk.injEq, decide_eq_true_eq]
  constructor
  · rintro ⟨_, _, ⟨rfl, rfl⟩, team, _, ⟨hteam, rfl⟩, _, _, ⟨rfl, rfl⟩, _, _, ⟨hroom, rfl⟩,
      member', joined, ⟨_, _, ⟨hrole, rfl⟩, _, _, ⟨rfl, rfl⟩, hadd⟩, _, _, ⟨rfl, rfl⟩,
      settled, _, hsettle, accepted, _, ⟨rfl, rfl⟩, rfl, rfl⟩
    exact ⟨team, joined, accepted, hteam, hroom, hrole, hadd, hsettle⟩
  · rintro ⟨team, joined, accepted, hteam, hroom, hrole, hadd, hsettle⟩
    exact ⟨_, _, ⟨rfl, rfl⟩, team, _, ⟨hteam, rfl⟩, _, _, ⟨rfl, rfl⟩, (), _, ⟨hroom, rfl⟩,
      member, joined, ⟨(), _, ⟨hrole, rfl⟩, _, _, ⟨rfl, rfl⟩, hadd⟩, _, _, ⟨rfl, rfl⟩,
      some accepted, s', hsettle, accepted, _, ⟨rfl, rfl⟩, rfl, rfl⟩

/-- A team is dissolved by deleting it and revoking its pending invitations. -/
theorem dissolveTeam_gives {team : Int} {now : Instant} {count : Nat} :
    (dissolveTeam team now).Gives time s count s' ↔
      ∃ deleted, s.deleteTeam team now = .ok ((), deleted) ∧
        deleted.settleAll (fun i => i.teamId = team) .revoked = (count, s') := by
  simp only [dissolveTeam, Work.gives_bind, Work.gives_perform, Tables.perform,
    Except.ok.injEq]
  constructor
  · rintro ⟨_, deleted, hdelete, hsettle⟩
    exact ⟨deleted, hdelete, hsettle⟩
  · rintro ⟨deleted, hdelete, hsettle⟩
    exact ⟨(), deleted, hdelete, hsettle⟩

end UnitOfWork

end Roster
