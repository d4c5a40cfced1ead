import Roster.Proofs.Verdict
import Roster.Proofs.WellFormed

/-!
# An expiry that stays

Who is told that an invitation has expired is never let in by it later. Either the expiry was
written down, and a settled invitation is final, or the store failed to write it, and then the
time decides again.

* `World.Forward` — the clock does not go back in episodes, and `World.clock_le_afterAll`;
* `World.afterAll_evolves` — what no episodes take back;
* `Invitation.lateRefusal` — what an acceptance past the expiry comes to, and
  `accept_late` that it does;
* `World.expired_stays_expired` — so every later acceptance comes to it, whatever happens in
  between.
-/

namespace Roster

/-! ## Episodes -/

namespace World

/-- The clock does not go back in the episodes. -/
def Forward (w : World Tables) : List Episode → Prop
  | [] => True
  | episode :: rest => w.clock ≤ (w.after episode).clock ∧ (w.after episode).Forward rest

variable {w : World Tables}

/-- An action does not move the clock. -/
theorem clock_acts (w : World Tables) (config : Config) (action : Action) :
    (w.after (.acts config action)).clock = w.clock :=
  (action.run_deed config w).1

theorem clock_le_afterAll {episodes : List Episode} (h : w.Forward episodes) :
    w.clock ≤ (w.afterAll episodes).clock := by
  induction episodes generalizing w with
  | nil => exact Instant.le_refl w.clock
  | cons episode rest ih => exact Instant.le_trans h.1 (ih h.2)

theorem after_evolves (hk : w.store.Keyed) (episode : Episode) :
    w.store.Evolves (w.after episode).store := by
  cases episode with
  | acts config action =>
    rcases (action.run_deed config w).2 with hsame | ⟨random, result, hdeed⟩
    · exact .of_eq (congrArg Tables.teams hsame) (congrArg Tables.invitations hsame)
    · have hinv : (Rely.alone w.store w.clock).inv ⟨w.store, w.clock, random⟩ := ⟨rfl, rfl⟩
      have hevolves := hdeed.evolves (Rely.alone_orderly hk) hinv
      exact hevolves
  | setClock clock => exact .of_eq rfl rfl
  | insertUser email name => exact .of_eq rfl rfl
  | failSettling fail => exact .of_eq rfl rfl

/-- What no call takes back, no episodes take back. -/
theorem afterAll_evolves (h : w.store.Sound) (episodes : List Episode) :
    w.store.Evolves (w.afterAll episodes).store := by
  induction episodes generalizing w with
  | nil => exact .refl w.store
  | cons episode rest ih =>
    exact (after_evolves h.1 episode).trans (ih (after_sound h episode))

end World

/-! ## Acceptances past the expiry -/

/-- What an acceptance past the expiry comes to. The addressee is told of the expiry as long as
the invitation is pending, and then that it is settled. -/
def Invitation.lateRefusal (i : Invitation) (email : String) : TeamError :=
  if i.isFor email then
    if i.isPending then .invitationExpired i.id else .alreadyProcessed i.id
  else .notAddressee

section

variable {i : Invitation} {w : World Tables} {token : Secret} {user : Int} {email : String}

theorem first_obstacles_late {s : Tables} {now : Instant} (hlate : i.isExpiredAt now = true) :
    Obstacle.first (i.obstacles s now user email) = some (i.lateRefusal email) := by
  simp only [Invitation.obstacles, Obstacle.first_cons, hlate, Invitation.lateRefusal]
  cases i.isFor email <;> cases i.isPending <;> rfl

/-- Only what has expired stands in the way as expired. -/
theorem expired_of_first_obstacles {s : Tables} {now : Instant} {id : Int}
    (hfirst : Obstacle.first (i.obstacles s now user email) = some (.invitationExpired id)) :
    i.id = id ∧ i.isExpiredAt now = true := by
  simp only [Invitation.obstacles, Obstacle.first_cons] at hfirst
  split at hfirst
  · cases hfirst
  split at hfirst
  · cases hfirst
  split at hfirst
  · rename_i hexpired
    cases hfirst
    exact ⟨rfl, hexpired⟩
  · exact absurd hfirst first_teamObstacles_ne_expired

theorem Tables.Proper.noOwnersInvited {s : Tables} (h : s.Proper) : s.NoOwnersInvited :=
  fun i hi => (h.wellFormed.offers i hi).role

/-- Past its expiry an invitation lets nobody in. -/
theorem accept_late (h : w.store.Proper) (hi : i ∈ w.store.invitations)
    (htoken : Token.hash token.plain = i.tokenHash) (hlate : i.isExpiredAt w.clock = true) :
    ((acceptInvitation token user email).run w).result =
      .error (.error (i.lateRefusal email)) := by
  have hfound : w.store.findInvitationByToken (Token.hash token.plain) = some i := by
    rw [htoken]
    exact h.keyed.findInvitationByToken_of_mem hi
  have hverdict : i.Verdict w user email ((acceptInvitation token user email).run w) :=
    acceptInvitation_verdict h.keyed h.noOwnersInvited hfound
  rw [Invitation.Verdict, first_obstacles_late hlate] at hverdict
  exact hverdict.1

/-- Who is told of an expiry has the token of a stored invitation that has expired. -/
theorem expired_of_accept (h : w.store.Proper) {id : Int}
    (hresult : ((acceptInvitation token user email).run w).result =
      .error (.error (.invitationExpired id))) :
    ∃ i ∈ w.store.invitations, i.id = id ∧ i.tokenHash = Token.hash token.plain ∧
      i.isExpiredAt w.clock = true := by
  cases hfound : w.store.findInvitationByToken (Token.hash token.plain) with
  | none =>
    rw [run_acceptInvitation, run_resolveToken_unknown hfound] at hresult
    cases hresult
  | some i =>
    obtain ⟨hi, hhash⟩ := Tables.findInvitationByToken_some hfound
    have hverdict : i.Verdict w user email ((acceptInvitation token user email).run w) :=
      acceptInvitation_verdict h.keyed h.noOwnersInvited hfound
    unfold Invitation.Verdict at hverdict
    split at hverdict
    · rename_i failure hfirst
      rw [hresult] at hverdict
      cases hverdict.1
      obtain ⟨hid, hexpired⟩ := expired_of_first_obstacles hfirst
      exact ⟨i, hi, hid, hhash, hexpired⟩
    · rw [hresult] at hverdict
      cases hverdict.1

end

namespace World

/-- An acceptance has been told that an invitation has expired. Whatever actions run one after
another from then on, while the clock does not go back and the store fails to settle invitations
or not, an acceptance of that invitation comes to its late refusal, whoever asks. -/
theorem expired_stays_expired (clock : Instant) (random : RandomSource) (early late : List Episode)
    (config : Config) (token : Secret) (user : Int) (email : String) (id : Int) :
    let before := (World.mk (Store.empty : Tables) clock random).afterAll early
    let expiry := ((Action.acceptInvitation token user email).program config).run before
    let after := expiry.world.afterAll late
    expiry.result = .error (.error (.invitationExpired id)) → expiry.world.Forward late →
      ∃ i, after.store.findInvitation id = some i ∧ i.tokenHash = Token.hash token.plain ∧
        ∀ (config' : Config) (token' : Secret) (user' : Int) (email' : String),
          Token.hash token'.plain = i.tokenHash →
            (((Action.acceptInvitation token' user' email').program config').run after).result =
              .error (.error (i.lateRefusal email')) := by
  intro before expiry after hexpiry hforward
  have hbefore : before.store.Proper := afterAll_proper Tables.empty_proper early
  have hproper : expiry.world.store.Proper :=
    after_proper hbefore (.acts config (.acceptInvitation token user email))
  have hafter : after.store.Proper := afterAll_proper hproper late
  obtain ⟨j, hj, rfl, hhash, hexpired⟩ := expired_of_accept hbefore hexpiry
  -- the invitation is still there, with its token and its expiry
  have hevolves : before.store.Evolves after.store :=
    (after_evolves hbefore.keyed (.acts config (.acceptInvitation token user email))).trans
      (afterAll_evolves ⟨hproper.keyed, hproper.owned⟩ late)
  obtain ⟨i, hi, hoffer, -⟩ := hevolves.invitations j hj
  obtain ⟨hid, -, -, -, htoken, hexpiresAt⟩ := Invitation.offer_eq hoffer
  -- and the time has not gone back behind it
  have hclock : before.clock ≤ after.clock := by
    have hsame : expiry.world.clock = before.clock := clock_acts before config _
    rw [← hsame]
    exact clock_le_afterAll hforward
  have hlate : i.isExpiredAt after.clock = true := by
    refine decide_eq_true ?_
    rw [hexpiresAt]
    exact Instant.lt_of_lt_of_le (of_decide_eq_true hexpired) hclock
  refine ⟨i, hid ▸ hafter.keyed.findInvitation_of_mem hi, htoken.trans hhash, ?_⟩
  intro config' token' user' email' htoken'
  exact accept_late hafter hi htoken' hlate

/-- The store fails to write down that an invitation has expired. Later it works again, and a
sweep does. -/
theorem expired_stays_expired_of_failing_store :
    let token : Secret := ⟨(RandomSource.sequence.token 32).1⟩
    let before := (World.mk (Store.empty : Tables) .epoch .sequence).afterAll
      [.acts .default (.createTeam
          { ownerId := 7
            name := "Core"
            description := none
            visibility := .everyone
            memberLimit := none }),
        .acts .default (.sendInvitation 1 7 "ann@example.org" .member),
        .failSettling true,
        .setClock ⟨2000000, 0, by decide, by decide⟩]
    let expiry :=
      ((Action.acceptInvitation token 1 "ann@example.org").program .default).run before
    let late : List Episode :=
      [.failSettling false,
        .setClock ⟨3000000, 0, by decide, by decide⟩,
        .acts .default (.expireStaleInvitations none)]
    let after := expiry.world.afterAll late
    expiry.result = .error (.error (.invitationExpired 1)) ∧ expiry.world.Forward late ∧
      ∃ i, after.store.findInvitation 1 = some i ∧ i.tokenHash = Token.hash token.plain ∧
        ∀ (config : Config) (token' : Secret) (user : Int) (email : String),
          Token.hash token'.plain = i.tokenHash →
            (((Action.acceptInvitation token' user email).program config).run after).result =
              .error (.error (i.lateRefusal email)) := by
  intro token before expiry late after
  have hexpired : expiry.result = .error (.error (.invitationExpired 1)) := by
    decide +kernel
  have hforward : expiry.world.Forward late := by
    have hclock : expiry.world.clock ≤ ⟨3000000, 0, by decide, by decide⟩ := by
      have hsame : expiry.world.clock = before.clock := clock_acts before .default _
      rw [hsame]
      exact .inl (by decide)
    refine ⟨Instant.le_refl expiry.world.clock, hclock, ?_, trivial⟩
    rw [clock_acts]
    exact Instant.le_refl _
  exact ⟨hexpired, hforward, expired_stays_expired .epoch .sequence _ late .default token 1
    "ann@example.org" 1 hexpired hforward⟩

end World

end Roster
