import Roster.Proofs.FreeSeats

/-!
# The verdict on an acceptance

An acceptance is refused for the first of seven reasons that holds, or it is granted; each
verdict says all that changes.

* `Obstacle`, `Invitation.obstacles` — what may stand in the way of an acceptance, in the
  order in which it counts;
* `run_resolveToken`, `run_expireLazily`, `answer_enrol_refused`, `answer_enrol_granted` —
  what the parts of the program come to;
* `Invitation.Verdict` — what is to come of an acceptance, and `acceptInvitation_verdict`
  that it does, on tables as calls leave them;
* `Pool.acceptance_verdict` — so it is in every world that calls can make.
-/

namespace Roster

/-- What may stand in the way of a call, with the failure that it then ends in. -/
structure Obstacle where
  stands : Bool
  failure : TeamError

namespace Obstacle

/-- The failure of the first obstacle that stands. -/
def first (obstacles : List Obstacle) : Option TeamError :=
  (obstacles.find? (·.stands)).map (·.failure)

variable {stands : Bool} {failure : TeamError} {rest : List Obstacle}

@[simp]
theorem first_nil : first [] = none := rfl

@[simp]
theorem first_cons : first (⟨stands, failure⟩ :: rest) =
    if stands then some failure else first rest := by
  cases stands <;> rfl

theorem first_cons_eq_none : first (⟨stands, failure⟩ :: rest) = none ↔
    stands = false ∧ first rest = none := by
  cases stands <;> simp

end Obstacle

/-- Puts a record in the place of the invitation with its id. -/
def Tables.putInvitation (s : Tables) (invitation : Invitation) : Tables :=
  { s with invitations := s.invitations.map fun i => if i.id = invitation.id then invitation else i }

namespace Invitation

/-- What the team and the store have against an acceptance. -/
def teamObstacles (invitation : Invitation) (s : Tables) (user : Int) : List Obstacle :=
  match s.findTeam invitation.teamId with
  | none => [⟨true, .teamNotFound invitation.teamId⟩]
  | some team =>
    [⟨team.memberLimit.toNat ≤ s.membersOf team.id, .teamFull team.id team.memberLimit⟩,
      ⟨s.isMember team.id user, .alreadyMember team.id⟩,
      ⟨s.failSettling, .database "injected failure: update_status"⟩]

/-- All that may stand in the way of an acceptance, in the order in which it counts. -/
def obstacles (invitation : Invitation) (s : Tables) (now : Instant) (user : Int)
    (email : String) : List Obstacle :=
  ⟨!invitation.isFor email, .notAddressee⟩ ::
    ⟨!invitation.isPending, .alreadyProcessed invitation.id⟩ ::
    ⟨invitation.isExpiredAt now, .invitationExpired invitation.id⟩ ::
    invitation.teamObstacles s user

/-- What a refused acceptance leaves: an expiry is written down, if the store lets it. -/
def refusing (invitation : Invitation) (s : Tables) (failure : TeamError) : Tables :=
  if failure = .invitationExpired invitation.id ∧ s.failSettling = false then
    s.putInvitation { invitation with status := .expired }
  else s

/-- What a granted acceptance leaves, with these members. -/
def granting (invitation : Invitation) (s : Tables) (now : Instant) (members : List Member) :
    Tables :=
  { s with members }.putInvitation { invitation with status := .accepted, acceptedAt := some now }

/-- The verdict on an acceptance: it ends in the failure of the first obstacle that
stands, or the user joins at the role that was offered. -/
def Verdict (invitation : Invitation) (w : World Tables) (user : Int) (email : String)
    (run : Run Tables Member) : Prop :=
  match Obstacle.first (invitation.obstacles w.store w.clock user email) with
  | some failure => run.result = .error (.error failure) ∧
    run.world = { w with store := invitation.refusing w.store failure }
  | none =>
    let member : Member := ⟨invitation.teamId, user, invitation.role, w.clock, w.clock⟩
    run.result = .ok member ∧ ∃ members, members.Perm (member :: w.store.members) ∧
      run.world = { w with store := invitation.granting w.store w.clock members }

end Invitation

/-! ## The parts of the program -/

section

variable {token : Secret} {user : Int} {email : String} {invitation : Invitation} {s : Tables}
  {time : Instant} {w : World Tables}

/-- The invitation behind a token is found, unless it is for somebody else or was
answered. -/
theorem run_resolveToken
    (hfound : s.findInvitationByToken (Token.hash token.plain) = some invitation) :
    (resolveToken token email).run time s =
      ⟨if invitation.isFor email then
          if invitation.isPending then .ok invitation
          else .error (.alreadyProcessed invitation.id)
        else .error .notAddressee, [], s⟩ := by
  cases hfor : invitation.isFor email <;> cases hpending : invitation.isPending <;>
    simp [resolveToken, Work.run_bind, Tables.perform_eq, Tables.perform, Tables.reading, hfound,
      Work.found, Work.require, hfor, hpending, -bind_pure_comp]

/-- An unknown token is refused. -/
theorem run_resolveToken_unknown
    (hunknown : s.findInvitationByToken (Token.hash token.plain) = none) :
    (resolveToken token email).run time s = ⟨.error .invitationNotFound, [], s⟩ := by
  simp [resolveToken, Work.run_bind, Tables.perform_eq, Tables.perform, Tables.reading, hunknown,
    Work.found]

/-- An expiry that is noticed is written down, if the store lets it. -/
theorem run_expireLazily (hk : w.store.Keyed) (hmem : invitation ∈ w.store.invitations)
    (hpending : invitation.isPending = true) :
    ((expireLazily invitation).run w).result = .ok () ∧
      ((expireLazily invitation).run w).world = { w with
        store := invitation.refusing w.store (.invitationExpired invitation.id) } := by
  cases hfail : w.store.failSettling with
  | true =>
    have hperform : w.store.perform (.settleInvitation invitation.id .expired w.clock) =
        .error (.database "injected failure: update_status") := by
      simp [Tables.perform, Tables.settleInvitation, hfail]
    simp [expireLazily, Program.run_bind, Program.run, World.adopt, Failure.ofResult,
      Program.answer_error hperform, Invitation.refusing, hfail]
  | false =>
    obtain ⟨settled, hsettle⟩ :=
      Tables.settleInvitation_pending hfail hk hmem hpending .expired w.clock
    have hperform : w.store.perform (.settleInvitation invitation.id .expired w.clock) = _ := hsettle
    obtain ⟨found, hfound, -, -, rfl⟩ := Tables.settleInvitation_ok hsettle
    simp [expireLazily, Program.run_bind, Program.run, World.adopt, Failure.ofResult,
      Program.answer_ok hperform, Invitation.refusing, hfail, Tables.putInvitation,
      Invitation.settle]

/-- What an enrolment replies is decided by its calls in order. -/
theorem run_enrolMember (hrole : invitation.role ≠ .owner) :
    ((UnitOfWork.enrolMember invitation user).run time s).result =
      match s.findTeam invitation.teamId with
      | none => .error (.teamNotFound invitation.teamId)
      | some team =>
        if s.countMembers team.id < team.memberLimit then
          match s.addMember ⟨team.id, user, invitation.role, time⟩ with
          | .error e => .error e
          | .ok (member, joined) =>
            match joined.settleInvitation invitation.id .accepted time with
            | .error e => .error e
            | .ok (none, _) => .error (.alreadyProcessed invitation.id)
            | .ok (some _, _) => .ok member
        else .error (.teamFull team.id team.memberLimit) := by
  cases hteam : s.findTeam invitation.teamId with
  | none =>
    simp [UnitOfWork.enrolMember, Work.run_bind, Tables.perform_eq, Tables.perform,
      Tables.reading, Work.found, hteam]
  | some team =>
    simp only [UnitOfWork.enrolMember, Membership.count, Membership.add, Work.run_bind,
      Work.run_perform, Tables.perform_eq, Tables.perform, Tables.reading, hteam, Work.found,
      Work.require, Outcome.andThen_ok, Work.run_pure]
    by_cases hroom : s.countMembers team.id < team.memberLimit
    · cases hadd : s.addMember ⟨team.id, user, invitation.role, time⟩ with
      | error e => simp [Work.run_bind, Tables.perform_eq, Tables.perform, hroom, hrole, hadd]
      | ok added =>
        obtain ⟨member, joined⟩ := added
        cases hsettle : joined.settleInvitation invitation.id .accepted time with
        | error e =>
          simp [Work.run_bind, Tables.perform_eq, Tables.perform, hroom, hrole, hadd, hsettle]
        | ok settled =>
          obtain ⟨settled, s'⟩ := settled
          cases settled <;>
            simp [Work.run_bind, Tables.perform_eq, Tables.perform, hroom, hrole, hadd, hsettle,
              -bind_pure_comp]
    · simp [hroom]

/-- What stands in the way of an enrolment is no expiry. -/
theorem first_teamObstacles_ne_expired {id : Int} :
    Obstacle.first (invitation.teamObstacles s user) ≠ some (.invitationExpired id) := by
  intro hfirst
  unfold Invitation.teamObstacles at hfirst
  split at hfirst
  · simp at hfirst
  · simp only [Obstacle.first_cons, Obstacle.first_nil] at hfirst
    repeat' split at hfirst
    all_goals simp at hfirst

/-- So nothing is written down. -/
theorem refusing_of_teamObstacles {failure : TeamError}
    (hfirst : Obstacle.first (invitation.teamObstacles s user) = some failure) :
    invitation.refusing s failure = s := by
  refine if_neg ?_
  rintro ⟨rfl, -⟩
  exact first_teamObstacles_ne_expired hfirst

/-- An enrolment that meets an obstacle fails with it and is undone. -/
theorem answer_enrol_refused (hrole : invitation.role ≠ .owner) {failure : TeamError}
    (hfirst : Obstacle.first (invitation.teamObstacles w.store user) = some failure) :
    (w.answer (.atomically (.enrol invitation user))).reply = .error failure ∧
      (w.answer (.atomically (.enrol invitation user))).world = w := by
  have hresult : ((UnitOfWork.enrolMember invitation user).run w.clock w.store).result =
      .error failure := by
    rw [run_enrolMember hrole]
    unfold Invitation.teamObstacles at hfirst
    cases hteam : w.store.findTeam invitation.teamId with
    | none =>
      simp [hteam] at hfirst
      simp [hfirst]
    | some team =>
      simp only [hteam, Obstacle.first_cons, Obstacle.first_nil, decide_eq_true_eq] at hfirst
      split at hfirst
      · rename_i hfull
        have hcount : ¬ w.store.countMembers team.id < team.memberLimit := fun hroom =>
          absurd (Tables.membersOf_lt hroom) (Nat.not_lt.mpr hfull)
        simp only [hcount, if_false]
        exact congrArg Except.error (Option.some.inj hfirst)
      · rename_i hroom
        have hcount : w.store.countMembers team.id < team.memberLimit :=
          Tables.countMembers_lt.mpr (Nat.not_le.mp hroom)
        cases hmember : w.store.isMember team.id user with
        | true =>
          simp [hmember] at hfirst
          simp [hcount, Tables.addMember, hmember, hfirst]
        | false =>
          obtain ⟨joined, hadd⟩ :=
            Tables.addMember_new ⟨team.id, user, invitation.role, w.clock⟩ hmember
          have hfail : joined.failSettling = w.store.failSettling := by
            rw [(Tables.addMember_ok hadd).2.2.2]
          simp [hmember] at hfirst
          simp [hcount, hadd, Tables.settleInvitation, hfail, hfirst]
  simp only [World.answer, World.take, Work.runAtomically, UnitOfWork.work, hresult, and_self]

/-- An enrolment that meets none is granted. -/
theorem answer_enrol_granted (hrole : invitation.role ≠ .owner) (hk : w.store.Keyed)
    (hmem : invitation ∈ w.store.invitations) (hpending : invitation.isPending = true)
    (hfirst : Obstacle.first (invitation.teamObstacles w.store user) = none) :
    ∃ members,
      members.Perm (⟨invitation.teamId, user, invitation.role, w.clock, w.clock⟩ ::
        w.store.members) ∧
      (w.answer (.atomically (.enrol invitation user))).reply =
        .ok ⟨invitation.teamId, user, invitation.role, w.clock, w.clock⟩ ∧
      (w.answer (.atomically (.enrol invitation user))).world =
        { w with store := invitation.granting w.store w.clock members } := by
  unfold Invitation.teamObstacles at hfirst
  cases hteam : w.store.findTeam invitation.teamId with
  | none => simp [hteam] at hfirst
  | some team =>
    obtain ⟨-, hid, -⟩ := Tables.findTeam_some hteam
    simp only [hteam, Obstacle.first_cons_eq_none, decide_eq_false_iff_not, Nat.not_le] at hfirst
    obtain ⟨hroom, hstranger, hworking, -⟩ := hfirst
    obtain ⟨joined, hadd⟩ :=
      Tables.addMember_new ⟨team.id, user, invitation.role, w.clock⟩ hstranger
    have hkeyed := Tables.addMember_keyed hadd hk
    obtain ⟨-, -, hperm, hjoined⟩ := Tables.addMember_ok hadd
    have hworking' : joined.failSettling = false := by
      rw [hjoined]
      exact hworking
    have hmem' : invitation ∈ joined.invitations := by
      rw [hjoined]
      exact hmem
    obtain ⟨s', hsettle⟩ :=
      Tables.settleInvitation_pending hworking' hkeyed hmem' hpending .accepted w.clock
    have hgives := UnitOfWork.enrolMember_gives.mpr
      ⟨team, joined, _, hteam, Tables.countMembers_lt.mpr hroom, hrole, hadd, hsettle⟩
    rw [World.answer_atomically_of_gives (.enrol invitation user) hgives, ← hid]
    refine ⟨joined.members, hperm, rfl, ?_⟩
    obtain ⟨_, -, -, -, rfl⟩ := Tables.settleInvitation_ok hsettle
    rw [hjoined]
    rfl

/-! ## The whole program -/

/-- An acceptance looks the invitation up, compares its expiry, and then either writes the
expiry down or enrols the user. -/
theorem run_acceptInvitation (token : Secret) (user : Int) (email : String) (w : World Tables) :
    (acceptInvitation token user email).run w =
      (w.adopt ((resolveToken token email).run w.clock w.store)).andThen fun invitation w =>
        if invitation.isExpiredAt w.clock then
          ((expireLazily invitation).run w).andThen
            fun _ => (Program.refuse (.invitationExpired invitation.id)).run
        else
          ((Program.atomically (.enrol invitation user)).run w).andThen fun member w =>
            ⟨.ok member, [.invitationAccepted member.teamId member.userId member.role], w⟩ := by
  simp only [acceptInvitation, Program.run_bind, Program.liftM_work, Program.run_ofWork]
  congr 1
  funext invitation w'
  rw [Program.run_bind]
  simp only [Program.run_ofWork, Work.run_now, World.adopt, Failure.ofResult, Run.andThen_ok,
    List.nil_append]
  split
  · rw [Program.run_bind]
  · rw [Program.run_bind]
    congr 1

/-- An acceptance of an invitation that is found comes to its verdict. -/
theorem acceptInvitation_verdict (hk : w.store.Keyed) (hroles : w.store.NoOwnersInvited)
    (hfound : w.store.findInvitationByToken (Token.hash token.plain) = some invitation) :
    invitation.Verdict w user email ((acceptInvitation token user email).run w) := by
  obtain ⟨hmem, -⟩ := Tables.findInvitationByToken_some hfound
  have hrole := hroles invitation hmem
  have hadopt : ∀ result : Except TeamError Invitation,
      w.adopt ⟨result, [], w.store⟩ = ⟨Failure.ofResult result, [], w⟩ := fun _ => rfl
  rw [run_acceptInvitation, run_resolveToken hfound, hadopt]
  simp only [Invitation.Verdict, Invitation.obstacles, Obstacle.first_cons]
  cases hfor : invitation.isFor email with
  | false => simp [Failure.ofResult, Invitation.refusing]
  | true =>
    cases hpending : invitation.isPending with
    | false => simp [Failure.ofResult, Invitation.refusing]
    | true =>
      simp only [Failure.ofResult, if_true, Run.andThen_ok, Bool.not_true, Bool.false_eq_true,
        if_false]
      cases hexpired : invitation.isExpiredAt w.clock with
      | true =>
        obtain ⟨hresult, hworld⟩ := run_expireLazily hk hmem hpending
        simp [Run.andThen, hresult, hworld]
      | false =>
        have hrun : (Program.atomically (.enrol invitation user)).run w =
            ⟨Failure.ofResult (w.answer (.atomically (.enrol invitation user))).reply,
              (w.answer (.atomically (.enrol invitation user))).log,
              (w.answer (.atomically (.enrol invitation user))).world⟩ := Program.run_atomically ..
        simp only [Bool.false_eq_true, if_false]
        cases hfirst : Obstacle.first (invitation.teamObstacles w.store user) with
        | some failure =>
          obtain ⟨hreply, hworld⟩ := answer_enrol_refused hrole hfirst
          rw [hrun, hreply, hworld]
          refine ⟨rfl, ?_⟩
          rw [refusing_of_teamObstacles hfirst]
          rfl
        | none =>
          obtain ⟨members, hperm, hreply, hworld⟩ :=
            answer_enrol_granted hrole hk hmem hpending hfirst
          rw [hrun, hreply, hworld]
          exact ⟨rfl, members, hperm, rfl⟩

end

namespace Pool

/-- In every world that calls can make, running together or one after another, an acceptance
comes to its verdict: no invitation has the digest of the token and it is refused, or just one
has it, and the acceptance is refused for the first obstacle that stands or lets the user in. -/
theorem acceptance_verdict (clock : Instant) (random : RandomSource) (history : List Event)
    (config : Config) (token : String) (user : Int) (email : String) :
    let w := ((start clock random).run history).world
    let run := ((Action.acceptInvitation ⟨token⟩ user email).program config).run w
    match w.store.invitations.filter fun i => i.tokenHash = Token.hash token with
    | [] => run.result = .error (.error .invitationNotFound) ∧ run.world = w
    | [invitation] => invitation.Verdict w user email run
    | _ => False := by
  intro w run
  obtain ⟨hk, hroles⟩ := (noOwners_fits clock random history).inv
  cases hfound : w.store.findInvitationByToken (Token.hash token) with
  | none =>
    have hnone : w.store.invitations.filter (fun i => i.tokenHash = Token.hash token) = [] :=
      List.filter_eq_nil_iff.mpr (List.find?_eq_none.mp hfound)
    rw [hnone]
    have hresolve : (resolveToken ⟨token⟩ email).run w.clock w.store =
        ⟨.error .invitationNotFound, [], w.store⟩ := run_resolveToken_unknown hfound
    have hrun : run = (acceptInvitation ⟨token⟩ user email).run w := rfl
    rw [hrun, run_acceptInvitation, hresolve]
    exact ⟨rfl, rfl⟩
  | some invitation =>
    obtain ⟨hmem, hhash⟩ := Tables.findInvitationByToken_some hfound
    have hone : w.store.invitations.filter (fun i => i.tokenHash = Token.hash token) =
        [invitation] := by
      refine Tables.filter_eq_singleton hk.invitations.of_map hmem (decide_eq_true hhash) ?_
      intro i hi hsame
      exact hk.invitation_eq_of_token hi hmem ((of_decide_eq_true hsame).trans hhash.symm)
    rw [hone]
    exact acceptInvitation_verdict hk hroles hfound

end Pool

end Roster
