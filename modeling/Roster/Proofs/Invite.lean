import Roster.Proofs.Checks
import Roster.Proofs.Invariant
import Roster.Proofs.SoleWinner

/-!
# What sending an invitation comes to

An invitation is refused for the first of its obstacles that stands, and then nothing has
changed. Otherwise one token is drawn; with it the invitation is stored, unless there is no
time at which it expires or another one has the token's digest.

* `Tables.addressObstacles`, `Tables.inviteObstacles` — what may stand in the way, in the order
  in which it counts;
* `run_checkAddress`, `run_checkInvitee` — the checks come to the first obstacle that stands;
* `run_issueInvitation` — what is left of the call once they are passed;
* `InviteVerdict` — what is to come of the call, and `Pool.invite_verdict` that it does, in
  every world that calls can make.
-/

namespace Roster

namespace Tables

/-- What stands in the way of inviting an address to a team: the address itself, a member who
has it, or an invitation that is pending for it. -/
def addressObstacles (s : Tables) (team : Int) (address : String) : List Obstacle :=
  match Email.validate address with
  | .error reason => [⟨true, .ofInput reason⟩]
  | .ok () =>
    [⟨(s.findUserByEmail address).any fun user => s.isMember team user.id, .alreadyMember team⟩,
      ⟨(s.findPendingInvitation team address).isSome, .alreadyInvited team⟩]

/-- All that may stand in the way of an invitation, in the order in which it counts. -/
def inviteObstacles (s : Tables) (team inviter : Int) (email : String) (role : Role) :
    List Obstacle :=
  ⟨¬ s.Manages team inviter, .permissionDenied⟩ :: ⟨role = .owner, .roleNotInvitable⟩ ::
    match s.findTeam team with
    | none => [⟨true, .teamNotFound team⟩]
    | some found =>
      ⟨found.memberLimit.toNat ≤ s.membersOf team, .teamFull team found.memberLimit⟩ ::
        s.addressObstacles team (Email.normalize email)

end Tables

/-! ## The checks -/

/-- The checks of a normalized address. -/
def checkAddress (team : Int) (address : String) : Program (String × Option User) := do
  Work.ofInput (Email.validate address)
  let invitee ← Program.userByEmail address
  match invitee with
  | some user =>
    let member ← Work.perform (.findMember team user.id)
    Work.require member.isNone (.alreadyMember team)
  | none => pure ()
  let outstanding ← Work.perform (.findPendingInvitation team address)
  Work.require outstanding.isNone (.alreadyInvited team)
  return (address, invitee)

/-- The address is checked last. -/
theorem checkInvitee_eq (team inviter : Int) (email : String) (role : Role) :
    checkInvitee team inviter email role = (do
      let member ← Membership.require team inviter .invite
      Work.require role.isInvitable .roleNotInvitable
      Work.require (member.role.mayAssign role) .permissionDenied
      let found ← requireTeam team
      let count ← Membership.count team
      Work.require (count < found.memberLimit) (.teamFull team found.memberLimit)
      checkAddress team (Email.normalize email)) := rfl

section

variable {w : World Tables} {team inviter : Int} {email address : String} {role : Role}

/-- The checks of an address come to the first obstacle. -/
theorem run_checkAddress (w : World Tables) (team : Int) (address : String) :
    (checkAddress team address).run w =
      ⟨match Obstacle.first (w.store.addressObstacles team address) with
        | some failure => .error (.error failure)
        | none => .ok (address, w.store.findUserByEmail address), [], w⟩ := by
  have hdirectory : Store.findUserByEmail address w.store = w.store.findUserByEmail address := rfl
  have hmember : ∀ user, (w.store.findMember team user).isNone = !w.store.isMember team user := by
    intro user
    rw [← Tables.isSome_findMember, Option.not_isSome]
  have hunasked : (w.store.findPendingInvitation team address).isNone =
      !(w.store.findPendingInvitation team address).isSome := by
    rw [Option.not_isSome]
  unfold checkAddress Tables.addressObstacles
  simp only [Program.run_bind, Program.liftM_work]
  cases hvalid : Email.validate address with
  | error reason => rfl
  | ok _ =>
    cases huser : w.store.findUserByEmail address with
    | none =>
      cases hpending : (w.store.findPendingInvitation team address).isSome <;>
        simp [Program.run_bind, World.adopt, Failure.ofResult, Work.ofInput, Work.require,
          Tables.perform_eq, Tables.perform, Tables.reading, hdirectory, huser, hunasked, hpending,
          -Option.isSome_eq_false_iff, -Option.isNone_iff_eq_none, -bind_pure_comp]
    | some user =>
      cases hjoined : w.store.isMember team user.id <;>
        cases hpending : (w.store.findPendingInvitation team address).isSome <;>
        simp [Program.run_bind, World.adopt, Failure.ofResult, Work.ofInput, Work.require,
          Tables.perform_eq, Tables.perform, Tables.reading, hdirectory, huser, hmember, hjoined,
          hunasked, hpending, -Option.isSome_eq_false_iff, -Option.isNone_iff_eq_none,
          -bind_pure_comp]

/-- All checks of an invitation come to the first obstacle. Whoever may invite may assign every
role but the owner's, so that the check of that refuses nobody. -/
theorem run_checkInvitee (hk : w.store.Keyed) (team inviter : Int) (email : String) (role : Role) :
    (checkInvitee team inviter email role).run w =
      ⟨match Obstacle.first (w.store.inviteObstacles team inviter email role) with
        | some failure => .error (.error failure)
        | none => .ok (Email.normalize email, w.store.findUserByEmail (Email.normalize email)),
        [], w⟩ := by
  rw [checkInvitee_eq, Tables.inviteObstacles]
  simp only [Program.run_bind, Program.liftM_work, Obstacle.first_cons, decide_eq_true_eq]
  by_cases hmanages : w.store.Manages team inviter
  · obtain ⟨member, hrole, hmember⟩ := run_require_manager hk .invite rfl hmanages w.clock
    rw [Program.run_reading hmember]
    simp only [Failure.ofResult, Run.andThen_ok, hmanages, not_true_eq_false, if_false]
    by_cases howner : role = .owner
    · subst howner
      rfl
    · have hinvitable : role.isInvitable = true := decide_eq_true howner
      have hassigns := Role.mayAssign_iff.mpr ⟨hrole, howner⟩
      have hteam := run_requireTeam team w.clock w.store
      have hcount : (Membership.count team).run w.clock w.store =
          ⟨.ok (w.store.countMembers team), [], w.store⟩ := rfl
      simp only [Program.run_bind, Program.run_ofWork_require, hinvitable, hassigns, if_true,
        Run.andThen_ok, howner, if_false, Program.run_reading hteam]
      cases hfound : w.store.findTeam team with
      | none => rfl
      | some found =>
        simp only [Failure.ofResult, Program.run_bind, Run.andThen_ok, Program.run_reading hcount,
          Program.run_ofWork_require, decide_eq_true_eq, Tables.countMembers_lt, ← Nat.not_le,
          Obstacle.first_cons]
        by_cases hfull : found.memberLimit.toNat ≤ w.store.membersOf team
        · simp [hfull]
        · simp [hfull, run_checkAddress]
  · have hother := run_require_other hk .invite rfl hmanages w.clock
    rw [Program.run_reading hother]
    simp [Failure.ofResult, hmanages]

/-! ## The invitation -/

/-- The invitation that a call sends with a token. -/
def Tables.newInvitation (s : Tables) (team inviter : Int) (email : String) (role : Role)
    (token : String) (now expiresAt : Instant) : Invitation :=
  { id := s.lastInvitationId + 1
    teamId := team
    invitedBy := inviter
    email := Email.normalize email
    inviteeId := (s.findUserByEmail (Email.normalize email)).map (·.id)
    role
    tokenHash := Token.hash token
    status := .pending
    expiresAt
    createdAt := now
    acceptedAt := none }

/-- Adds an invitation under the next id. -/
def Tables.addInvitation (s : Tables) (invitation : Invitation) : Tables :=
  { s with
    invitations := s.invitations ++ [invitation]
    lastInvitationId := invitation.id }

/-- What comes of sending an invitation that meets no obstacle: one token is drawn; there must
be a time at which the invitation expires, and no other invitation may have the digest of the
token. -/
def IssueVerdict (config : Config) (team inviter : Int) (email : String) (role : Role)
    (w : World Tables) (run : Run Tables SentInvitation) : Prop :=
  let token := (w.random.token config.tokenLength).1
  let drawn := { w with random := { w.random with drawn := w.random.drawn + 1 } }
  match w.clock.add? config.expiry with
  | none => run.result = .error .timeOverflow ∧ run.world = drawn
  | some expiresAt =>
    if ∃ i ∈ w.store.invitations, i.tokenHash = Token.hash token then
      run.result = .error (.error (.internal "duplicate invitation token")) ∧ run.world = drawn
    else
      let invitation := w.store.newInvitation team inviter email role token w.clock expiresAt
      run.result = .ok ⟨invitation, ⟨token⟩, (config.acceptUrl token).map (⟨·⟩)⟩ ∧
        run.world = { drawn with store := w.store.addInvitation invitation }

/-- The verdict on sending an invitation: it ends in the failure of the first obstacle that
stands, and nothing has changed, or it is issued. -/
def InviteVerdict (config : Config) (team inviter : Int) (email : String) (role : Role)
    (w : World Tables) (run : Run Tables SentInvitation) : Prop :=
  match Obstacle.first (w.store.inviteObstacles team inviter email role) with
  | some failure => run.result = .error (.error failure) ∧ run.world = w
  | none => IssueVerdict config team inviter email role w run

/-- Some invitation is found by a digest exactly if one has it. -/
theorem Tables.isSome_findInvitationByToken (s : Tables) (hash : String) :
    (s.findInvitationByToken hash).isSome = true ↔ ∃ i ∈ s.invitations, i.tokenHash = hash := by
  simp [findInvitationByToken, List.find?_isSome]

/-- Once the checks are passed, the invitation is issued. -/
theorem run_issueInvitation (config : Config) (inviter : Int) (role : Role)
    (hunasked : w.store.findPendingInvitation team (Email.normalize email) = none) :
    IssueVerdict config team inviter email role w
      ((Program.issueInvitation config team inviter role (Email.normalize email,
        w.store.findUserByEmail (Email.normalize email))).run w) := by
  unfold IssueVerdict Program.issueInvitation
  simp only [Program.run_bind, Program.liftM_work, Program.run_token, Run.andThen_ok,
    Program.run_ofWork, Work.run_now, World.adopt, Failure.ofResult, Program.later,
    ← Tables.isSome_findInvitationByToken]
  cases hexpires : w.clock.add? config.expiry with
  | none => exact ⟨rfl, rfl⟩
  | some expiresAt =>
    have hpending :
        (w.store.findPendingInvitation team (Email.normalize email)).isSome = false := by
      rw [hunasked, Option.isSome_none]
    simp only [Program.run_bind, Program.run_pure, Run.andThen_ok, Program.run_ofWork,
      Work.run_perform, Tables.perform_eq, Tables.perform, Tables.createInvitation, hpending,
      Bool.false_eq_true, if_false]
    -- another invitation has the digest, or none has
    split <;> exact ⟨rfl, rfl⟩

/-- An invitation that meets no obstacle goes to a valid address, by which no member is found, and
is asked of nobody yet. -/
theorem Tables.inviteObstacles_none {s : Tables}
    (hfirst : Obstacle.first (s.inviteObstacles team inviter email role) = none) :
    Email.validate (Email.normalize email) = .ok () ∧
      ((s.findUserByEmail (Email.normalize email)).any fun user => s.isMember team user.id) =
        false ∧
      s.findPendingInvitation team (Email.normalize email) = none := by
  unfold inviteObstacles at hfirst
  simp only [Obstacle.first_cons_eq_none] at hfirst
  obtain ⟨-, -, hfirst⟩ := hfirst
  cases hfound : s.findTeam team with
  | none => simp [hfound] at hfirst
  | some found =>
    simp only [hfound, Obstacle.first_cons_eq_none, addressObstacles] at hfirst
    cases hvalid : Email.validate (Email.normalize email) with
    | error reason => simp [hvalid] at hfirst
    | ok _ =>
      simp only [hvalid, Obstacle.first_cons_eq_none] at hfirst
      obtain ⟨-, hmember, hpending, -⟩ := hfirst
      exact ⟨rfl, hmember, Option.isNone_iff_eq_none.mp (Option.isSome_eq_false_iff.mp hpending)⟩

/-- Sending an invitation comes to its verdict. -/
theorem sendInvitation_verdict (hk : w.store.Keyed) (config : Config) (team inviter : Int)
    (email : String) (role : Role) :
    InviteVerdict config team inviter email role w
      ((sendInvitation config team inviter email role).run w) := by
  unfold InviteVerdict
  rw [Program.sendInvitation_eq, Program.run_bind, run_checkInvitee hk]
  cases hfirst : Obstacle.first (w.store.inviteObstacles team inviter email role) with
  | some failure => exact ⟨rfl, rfl⟩
  | none =>
    obtain ⟨-, -, hunasked⟩ := Tables.inviteObstacles_none hfirst
    exact run_issueInvitation config inviter role hunasked

end

/-- In every world that calls can make, running together or one after another, sending an
invitation comes to its verdict: it is refused for the first of its obstacles that stands, or
it draws one token and issues the invitation with it. -/
theorem Pool.invite_verdict (clock : Instant) (random : RandomSource) (history : List Event)
    (config : Config) (team inviter : Int) (email : String) (role : Role) :
    let w := ((start clock random).run history).world
    InviteVerdict config team inviter email role w
      (((Action.sendInvitation team inviter email role).program config).run w) := by
  intro w
  exact sendInvitation_verdict (start_tidy clock random history).regular.keyed config team inviter
    email role

end Roster
