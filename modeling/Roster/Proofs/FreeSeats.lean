import Mathlib.Data.List.Count
import Roster.Proofs.LostUpdate
import Roster.Proofs.Tables.Unique
import Roster.Proofs.WellFormed

/-!
# Guests for the free seats of a team

Any number of users accept invitations to one team at the same time, and nobody else
does anything. In every order of their steps the free seats are filled, each by one of
them, and who comes too late keeps a pending invitation.

* `Guest`, `Guest.Invited` — who accepts, and that nothing but the room can stand in
  the way;
* `Guest.rest` — what is left of the call at each of its requests, and one lemma for
  each of the three steps (`Guest.step_find`, `Guest.step_clock`, `Guest.step_enrol`);
* `Guest.Stands` — where a call stands: it waits, it has joined, or it was refused by a
  full team;
* `Pool.Hosts` — every call stands somewhere, and those that have joined are the new
  members; `Pool.Hosts.step` and `Pool.Hosts.run` keep it;
* `Pool.free_seats_filled` — when all have returned, the seats are filled.
-/

namespace Roster

/-- A user with what it takes to accept an invitation. -/
structure Guest where
  config : Config
  invitation : Invitation
  token : Secret
  user : Int
  email : String

/-- Whether a thread has returned with a success. -/
def Thread.succeeded (thread : Thread) : Bool :=
  thread.result?.any Except.isOk

namespace Guest

/-- The call by which a guest accepts. -/
def call (guest : Guest) : Call :=
  .act guest.config (.acceptInvitation guest.token guest.user guest.email)

/-- The invitation is a pending one to the team that is not expired, the guest is its
addressee, has its token, and is not a member. -/
structure Invited (guest : Guest) (w : World Tables) (team : Int) : Prop where
  stored : guest.invitation ∈ w.store.invitations
  teamId : guest.invitation.teamId = team
  pending : guest.invitation.isPending = true
  unexpired : guest.invitation.isExpiredAt w.clock = false
  token : Token.hash guest.token.plain = guest.invitation.tokenHash
  addressed : guest.invitation.isFor guest.email = true
  stranger : w.store.isMember team guest.user = false

instance (guest : Guest) (w : World Tables) (team : Int) : Decidable (guest.Invited w team) :=
  decidable_of_iff
    (guest.invitation ∈ w.store.invitations ∧ guest.invitation.teamId = team ∧
      guest.invitation.isPending = true ∧ guest.invitation.isExpiredAt w.clock = false ∧
      Token.hash guest.token.plain = guest.invitation.tokenHash ∧
      guest.invitation.isFor guest.email = true ∧ w.store.isMember team guest.user = false)
    ⟨fun ⟨stored, teamId, pending, unexpired, token, addressed, stranger⟩ =>
        ⟨stored, teamId, pending, unexpired, token, addressed, stranger⟩,
      fun ⟨stored, teamId, pending, unexpired, token, addressed, stranger⟩ =>
        ⟨stored, teamId, pending, unexpired, token, addressed, stranger⟩⟩

end Guest

/-- Guests of an active team, no two with the same invitation and no two the same user,
on a store that works. -/
structure Party (guests : List Guest) (w : World Tables) (row : Team) : Prop where
  active : w.store.findTeam row.id = some row
  working : w.store.failSettling = false
  invited : ∀ guest ∈ guests, guest.Invited w row.id
  invitations : (guests.map (·.invitation.id)).Nodup
  users : (guests.map (·.user)).Nodup

/-- What may happen while guests accept in the threads from `first` on: their calls
proceed, users are inserted, and the clock passes no expiry. -/
def Event.AmongGuests (guests : List Guest) (first : Nat) : Event → Prop
  | .proceeds i => first ≤ i ∧ i < first + guests.length
  | .setClock time => ∀ guest ∈ guests, guest.invitation.isExpiredAt time = false
  | .insertUser _ _ => True
  | .begins _ | .failSettling _ => False

instance (guests : List Guest) (first : Nat) (event : Event) :
    Decidable (event.AmongGuests guests first) :=
  match event with
  | .proceeds i => inferInstanceAs (Decidable (first ≤ i ∧ i < first + guests.length))
  | .setClock time =>
    inferInstanceAs (Decidable (∀ guest ∈ guests, guest.invitation.isExpiredAt time = false))
  | .insertUser _ _ => inferInstanceAs (Decidable True)
  | .begins _ | .failSettling _ => inferInstanceAs (Decidable False)

/-- How many steps events let a thread take. -/
def Event.stepsOf (events : List Event) (i : Nat) : Nat :=
  events.countP fun event => event.thread? = some i

/-! ## Enrolments -/

namespace Tables

variable {s s' : Tables}

/-- What the enrolment of a guest changes: there is one more member, and the other
invitations stay. -/
structure Enrols (guest : Guest) (s : Tables) (member : Member) (s' : Tables) : Prop where
  keyed : s'.Keyed
  teams : s'.teams = s.teams
  failSettling : s'.failSettling = s.failSettling
  joins : member.teamId = guest.invitation.teamId ∧ member.userId = guest.user ∧
    member.role = guest.invitation.role
  members : s'.members.Perm (member :: s.members)
  invitations : ∀ i ∈ s.invitations, i.id ≠ guest.invitation.id → i ∈ s'.invitations

namespace Enrols

variable {guest : Guest} {member : Member} (h : Enrols guest s member s')

include h

theorem mem_members : member ∈ s'.members :=
  h.members.mem_iff.mpr List.mem_cons_self

theorem membersOf_eq : s'.membersOf guest.invitation.teamId =
    s.membersOf guest.invitation.teamId + 1 := by
  simp only [membersOf, h.members.countP_eq, List.countP_cons, h.joins.1, decide_true, if_true]

/-- Whom it does not enrol is a stranger still. -/
theorem isMember_other {team user : Int} (hstranger : s.isMember team user = false)
    (huser : user ≠ guest.user) : s'.isMember team user = false := by
  rw [Bool.eq_false_iff] at hstranger ⊢
  intro hmember
  obtain ⟨m, hm, hteam, hmuser⟩ := isMember_iff.mp hmember
  rcases List.mem_cons.mp (h.members.mem_iff.mp hm) with rfl | hold
  · exact huser (hmuser.symm.trans h.joins.2.1)
  · exact hstranger (isMember_iff.mpr ⟨m, hold, hteam, hmuser⟩)

end Enrols

end Tables

namespace UnitOfWork

variable {s s' : Tables} {time : Instant} {guest : Guest} {row : Team}

/-- What an enrolment gives is an enrolment. -/
theorem enrols_of_gives {member : Member}
    (h : (enrolMember guest.invitation guest.user).Gives time s member s') (hk : s.Keyed) :
    s.Enrols guest member s' := by
  obtain ⟨team, joined, accepted, hteam, -, -, hadd, hsettle⟩ := enrolMember_gives.mp h
  obtain ⟨-, hid, -⟩ := Tables.findTeam_some hteam
  have hkeyed := Tables.settleInvitation_keyed hsettle (Tables.addMember_keyed hadd hk)
  obtain ⟨-, rfl, hperm, hjoined⟩ := Tables.addMember_ok hadd
  obtain ⟨found, -, -, -, heq⟩ := Tables.settleInvitation_ok hsettle
  rw [hjoined] at heq
  subst heq
  refine ⟨hkeyed, rfl, rfl, ⟨hid, rfl, rfl⟩, hperm, ?_⟩
  intro i hi hother
  exact List.mem_map.mpr ⟨i, hi, if_neg hother⟩

/-- With room in the team and nothing else in the way a guest is enrolled. -/
theorem enrolMember_room (time : Instant) (hk : s.Keyed) (hworking : s.failSettling = false)
    (hrow : s.findTeam guest.invitation.teamId = some row)
    (hroom : s.membersOf row.id < row.memberLimit.toNat)
    (hrole : guest.invitation.role ≠ .owner) (hstored : guest.invitation ∈ s.invitations)
    (hpending : guest.invitation.isPending = true)
    (hstranger : s.isMember row.id guest.user = false) :
    ∃ member s', (enrolMember guest.invitation guest.user).Gives time s member s' := by
  obtain ⟨joined, hadd⟩ :=
    Tables.addMember_new ⟨row.id, guest.user, guest.invitation.role, time⟩ hstranger
  have hjoinedKeyed := Tables.addMember_keyed hadd hk
  obtain ⟨-, -, -, hjoined⟩ := Tables.addMember_ok hadd
  have hworking' : joined.failSettling = false := by
    rw [hjoined]
    exact hworking
  have hstored' : guest.invitation ∈ joined.invitations := by
    rw [hjoined]
    exact hstored
  obtain ⟨s', hsettle⟩ :=
    Tables.settleInvitation_pending hworking' hjoinedKeyed hstored' hpending .accepted time
  exact ⟨_, s', enrolMember_gives.mpr
    ⟨row, joined, _, hrow, Tables.countMembers_lt.mpr hroom, hrole, hadd, hsettle⟩⟩

/-- Without room nobody is enrolled, and nothing happens to the invitation. -/
theorem answer_enrol_full {w : World Tables}
    (hrow : w.store.findTeam guest.invitation.teamId = some row)
    (hfull : row.memberLimit.toNat ≤ w.store.membersOf row.id) :
    w.answer (.atomically (.enrol guest.invitation guest.user)) =
      ⟨.error (.teamFull row.id row.memberLimit), [], w⟩ := by
  have hcount : ¬ w.store.countMembers row.id < row.memberLimit := fun hroom =>
    absurd (Tables.membersOf_lt hroom) (Nat.not_lt.mpr hfull)
  have hrun : (enrolMember guest.invitation guest.user).run w.clock w.store =
      ⟨.error (.teamFull row.id row.memberLimit), [], w.store⟩ := by
    simp [enrolMember, Membership.count, Work.run_bind, Tables.perform_eq, Tables.perform,
      Tables.reading, hrow, Work.found, Work.require, hcount]
  simp only [World.answer, World.take, Work.runAtomically, work, hrun]

end UnitOfWork

/-! ## One guest -/

namespace Guest

/-- What follows the attempt to enrol a guest. -/
def entering (reply : Except TeamError Member) : Program Member := do
  let member ← Program.ofExcept reply
  Program.log (.invitationAccepted member.teamId member.userId member.role)
  return member

/-- What is left of the call once the expiry has been compared. -/
def enrolling (guest : Guest) : Program Member :=
  .ask (.atomically (.enrol guest.invitation guest.user)) entering

/-- What is left of the call once the invitation has been found. -/
def comparing (guest : Guest) : Program Member := do
  let now ← Work.now
  if guest.invitation.isExpiredAt now then
    expireLazily guest.invitation
    Program.refuse (.invitationExpired guest.invitation.id)
  else guest.enrolling

/-- The request that the call makes next. -/
inductive Phase
  | finding
  | comparing
  | enrolling

/-- How many steps the call has taken. -/
def Phase.taken : Phase → Nat
  | .finding => 0
  | .comparing => 1
  | .enrolling => 2

/-- What is left of the call. -/
def rest (guest : Guest) : Phase → Program Answer
  | .finding => guest.call.program
  | .comparing => guest.comparing.map .member
  | .enrolling => guest.enrolling.map .member

variable {guest : Guest} {w w₀ : World Tables} {row : Team} {thread : Thread} {taken : Nat}

/-- The call begins by looking for the invitation; the checks of the answer are no
requests. -/
theorem rest_finding (guest : Guest) :
    ∃ next, guest.rest .finding =
        .ask (.store (.findInvitationByToken (Token.hash guest.token.plain))) next ∧
      (guest.invitation.isFor guest.email = true → guest.invitation.isPending = true →
        next (.ok (some guest.invitation)) = guest.rest .comparing) := by
  simp only [rest, call, Call.program, Action.program, acceptInvitation, resolveToken,
    Program.map_eq, Program.liftM_work, Program.ofWork_bind, bind_assoc,
    Program.ofWork_perform_bind, Program.ask_bind]
  refine ⟨_, rfl, ?_⟩
  intro haddressed hpending
  simp only [Program.ofExcept, pure_bind, Work.found, Work.require, haddressed, hpending, if_true,
    Program.ofWork_pure]
  rfl

/-- The first request finds the invitation. -/
theorem step_find (hinvited : guest.Invited w₀ row.id) (hk : w.store.Keyed)
    (hstored : guest.invitation ∈ w.store.invitations) :
    (Thread.mk guest.call (guest.rest .finding)).step w =
      (⟨guest.call, guest.rest .comparing⟩, w) := by
  have hfound := hk.findInvitationByToken_of_mem hstored
  rw [← hinvited.token] at hfound
  have hanswer : w.answer (.store (.findInvitationByToken (Token.hash guest.token.plain))) =
      ⟨.ok (some guest.invitation), [], w⟩ := by
    rw [← hfound]
    rfl
  obtain ⟨next, hrest, hnext⟩ := guest.rest_finding
  simp only [Thread.step, hrest, hanswer, hnext hinvited.addressed hinvited.pending]

/-- The second compares the expiry with the time. -/
theorem step_clock (hunexpired : guest.invitation.isExpiredAt w.clock = false) :
    (Thread.mk guest.call (guest.rest .comparing)).step w =
      (⟨guest.call, guest.rest .enrolling⟩, w) := by
  show (Thread.mk guest.call
    (Program.map .member (if guest.invitation.isExpiredAt w.clock then _ else _)), w) = _
  rw [hunexpired]
  rfl

/-- The third enrols the guest or does not, and then the call returns. -/
theorem step_enrol : (Thread.mk guest.call (guest.rest .enrolling)).step w =
    (⟨guest.call, (entering (w.answer (.atomically
        (.enrol guest.invitation guest.user))).reply).map .member⟩,
      (w.answer (.atomically (.enrol guest.invitation guest.user))).world) := rfl

/-- As long as there is a request to make the call has not returned. -/
theorem succeeded_rest (guest : Guest) (phase : Phase) :
    (Thread.mk guest.call (guest.rest phase)).succeeded = false := by
  have hnone : (guest.rest phase).outcome? = none := by
    cases phase with
    | finding =>
      obtain ⟨next, hrest, -⟩ := guest.rest_finding
      rw [hrest]
      rfl
    | comparing | enrolling => rfl
  rw [Thread.succeeded, Thread.result?, hnone]
  rfl

/-- Where the call of a guest stands after so many steps: it waits, it has joined, or a
full team has refused it. -/
inductive Stands (guest : Guest) (row : Team) (s : Tables) (taken : Nat) (thread : Thread) : Prop
  | waits (phase : Phase) : thread.rest = guest.rest phase → phase.taken = taken →
    guest.invitation ∈ s.invitations → s.isMember row.id guest.user = false →
    Stands guest row s taken thread
  | joined {member : Member} : thread.result? = some (.ok (.member member)) →
    member.teamId = row.id ∧ member.userId = guest.user ∧ member.role = guest.invitation.role →
    member ∈ s.members → Stands guest row s taken thread
  | refused : thread.result? = some (.error (.error (.teamFull row.id row.memberLimit))) →
    guest.invitation ∈ s.invitations → row.memberLimit.toNat ≤ s.membersOf row.id →
    Stands guest row s taken thread

namespace Stands

variable {s s' : Tables}

/-- Where a call stands is about invitations and members only. -/
theorem of_eq (h : guest.Stands row s taken thread) (hmembers : s'.members = s.members)
    (hinvitations : s'.invitations = s.invitations) : guest.Stands row s' taken thread := by
  cases h with
  | waits phase hrest htaken hstored hstranger =>
    refine .waits phase hrest htaken (hinvitations ▸ hstored) ?_
    rw [Tables.isMember, hmembers]
    exact hstranger
  | joined hresult hmember hmem => exact .joined hresult hmember (hmembers ▸ hmem)
  | refused hresult hstored hfull =>
    refine .refused hresult (hinvitations ▸ hstored) ?_
    rw [Tables.membersOf, hmembers]
    exact hfull

/-- The enrolment of another guest does not move it. -/
theorem of_enrols {other : Guest} {member : Member} (h : guest.Stands row s taken thread)
    (henrols : s.Enrols other member s') (hteam : other.invitation.teamId = row.id)
    (hid : guest.invitation.id ≠ other.invitation.id) (huser : guest.user ≠ other.user) :
    guest.Stands row s' taken thread := by
  cases h with
  | waits phase hrest htaken hstored hstranger =>
    exact .waits phase hrest htaken (henrols.invitations _ hstored hid)
      (henrols.isMember_other hstranger huser)
  | joined hresult hmember hmem =>
    exact .joined hresult hmember (henrols.members.mem_iff.mpr (List.mem_cons_of_mem _ hmem))
  | refused hresult hstored hfull =>
    refine .refused hresult (henrols.invitations _ hstored hid) ?_
    have hcount := henrols.membersOf_eq
    rw [hteam] at hcount
    omega

/-- A step of the call leaves the world alone, or it enrols the guest in a team with
room. -/
theorem step (h : guest.Stands row w.store taken thread) (hcall : thread.call = guest.call)
    (hinvited : guest.Invited w₀ row.id) (hrole : guest.invitation.role ≠ .owner)
    (hk : w.store.Keyed) (hworking : w.store.failSettling = false)
    (hrow : w.store.findTeam row.id = some row)
    (hunexpired : guest.invitation.isExpiredAt w.clock = false) :
    ∃ thread' w', thread.step w = (thread', w') ∧ thread'.call = guest.call ∧
      guest.Stands row w'.store (taken + 1) thread' ∧
      (w' = w ∧ thread'.succeeded = thread.succeeded ∨
        ∃ member s', w' = { w with store := s' } ∧ w.store.Enrols guest member s' ∧
          w.store.membersOf row.id < row.memberLimit.toNat ∧
          thread.succeeded = false ∧ thread'.succeeded = true) := by
  cases h with
  | joined hresult hmember hmem =>
    obtain ⟨thread', heq, hsame, hresult'⟩ := Thread.step_returned hresult (w := w)
    refine ⟨thread', w, heq, hsame.trans hcall, .joined hresult' hmember hmem, .inl ⟨rfl, ?_⟩⟩
    rw [Thread.succeeded, Thread.succeeded, hresult, hresult']
  | refused hresult hstored hfull =>
    obtain ⟨thread', heq, hsame, hresult'⟩ := Thread.step_returned hresult (w := w)
    refine ⟨thread', w, heq, hsame.trans hcall, .refused hresult' hstored hfull, .inl ⟨rfl, ?_⟩⟩
    rw [Thread.succeeded, Thread.succeeded, hresult, hresult']
  | waits phase hrest htaken hstored hstranger =>
    obtain ⟨call, rest⟩ := thread
    subst hcall hrest
    cases phase with
    | finding =>
      refine ⟨_, w, step_find hinvited hk hstored, rfl, ?_, .inl ⟨rfl, ?_⟩⟩
      · exact .waits .comparing rfl (htaken ▸ rfl) hstored hstranger
      · rw [succeeded_rest, succeeded_rest]
    | comparing =>
      refine ⟨_, w, step_clock hunexpired, rfl, ?_, .inl ⟨rfl, ?_⟩⟩
      · exact .waits .enrolling rfl (htaken ▸ rfl) hstored hstranger
      · rw [succeeded_rest, succeeded_rest]
    | enrolling =>
      have hteam : w.store.findTeam guest.invitation.teamId = some row :=
        hinvited.teamId.symm ▸ hrow
      refine ⟨_, _, step_enrol, rfl, ?_⟩
      by_cases hroom : w.store.membersOf row.id < row.memberLimit.toNat
      · obtain ⟨member, s', hgives⟩ := UnitOfWork.enrolMember_room w.clock hk hworking
          hteam hroom hrole hstored hinvited.pending hstranger
        have henrols := UnitOfWork.enrols_of_gives hgives hk
        rw [World.answer_atomically_of_gives (.enrol guest.invitation guest.user) hgives]
        refine ⟨.joined rfl ?_ henrols.mem_members,
          .inr ⟨member, s', rfl, henrols, hroom, guest.succeeded_rest .enrolling, rfl⟩⟩
        rw [← hinvited.teamId]
        exact henrols.joins
      · rw [UnitOfWork.answer_enrol_full hteam (Nat.not_lt.mp hroom)]
        refine ⟨.refused rfl hstored (Nat.not_lt.mp hroom), .inl ⟨rfl, ?_⟩⟩
        rw [succeeded_rest]
        rfl

end Stands

end Guest

/-! ## All guests -/

section

variable {guests : List Guest} {guest other : Guest} {row : Team} {j k : Nat}

/-- Guests in different places have different keys, if no key is there twice. -/
theorem Guest.key_ne {key : Guest → Int} (hnodup : (guests.map key).Nodup)
    (hguest : guests[j]? = some guest) (hother : guests[k]? = some other) (hne : j ≠ k) :
    key guest ≠ key other := by
  intro heq
  obtain ⟨hj, -⟩ := List.getElem?_eq_some_iff.mp hguest
  refine hne ((List.getElem?_inj (by rwa [List.length_map]) hnodup).mp ?_)
  rw [List.getElem?_map, List.getElem?_map, hguest, hother]
  exact congrArg some heq

namespace Pool

/-- The calls of guests run in a pool, in threads after those that were there before. Each
call stands somewhere, and those that have joined are the new members. -/
structure Hosts (guests : List Guest) (row : Team) (before : Pool) (events : List Event)
    (calls : List Thread) (pool : Pool) : Prop where
  threads : pool.threads = before.threads ++ calls
  length : calls.length = guests.length
  keyed : pool.world.store.Keyed
  working : pool.world.store.failSettling = false
  active : pool.world.store.findTeam row.id = some row
  unexpired : ∀ guest ∈ guests, guest.invitation.isExpiredAt pool.world.clock = false
  stands : ∀ (j : Nat) guest thread, guests[j]? = some guest → calls[j]? = some thread →
    thread.call = guest.call ∧
      guest.Stands row pool.world.store (Event.stepsOf events (before.threads.length + j)) thread
  seats : pool.world.store.membersOf row.id =
    before.world.store.membersOf row.id + calls.countP Thread.succeeded
  room : calls.countP Thread.succeeded = 0 ∨
    pool.world.store.membersOf row.id ≤ row.memberLimit.toNat

variable {before pool : Pool} {events : List Event} {calls : List Thread} {thread : Thread}

/-- Beginning a call adds its thread and does nothing else. -/
theorem run_begins (pool : Pool) (calls : List Call) :
    pool.run (calls.map .begins) = ⟨pool.world, pool.threads ++ calls.map Call.begun⟩ := by
  induction calls generalizing pool with
  | nil => simp
  | cons call rest ih =>
    rw [List.map_cons, run_cons, ih]
    simp [step, Call.begun]

/-- When the guests have begun, each of them has all three requests to make. -/
theorem hosts_begins (hk : before.world.store.Keyed) (hparty : Party guests before.world row) :
    Hosts guests row before [] (guests.map fun guest => guest.call.begun)
      (before.run (guests.map fun guest => .begins guest.call)) := by
  have hbegun : before.run (guests.map fun guest => .begins guest.call) =
      ⟨before.world, before.threads ++ guests.map fun guest => guest.call.begun⟩ := by
    have hrun := run_begins before (guests.map Guest.call)
    rwa [List.map_map, List.map_map] at hrun
  have hnone : (guests.map fun guest => guest.call.begun).countP Thread.succeeded = 0 := by
    refine List.countP_eq_zero.mpr ?_
    intro thread hthread hsucceeded
    obtain ⟨guest, -, rfl⟩ := List.mem_map.mp hthread
    exact Bool.false_ne_true ((guest.succeeded_rest .finding).symm.trans hsucceeded)
  rw [hbegun]
  refine
    { threads := rfl
      length := List.length_map _
      keyed := hk
      working := hparty.working
      active := hparty.active
      unexpired := fun guest hguest => (hparty.invited guest hguest).unexpired
      stands := ?_
      seats := by rw [hnone]; rfl
      room := .inl hnone }
  intro j guest thread hguest hthread
  rw [List.getElem?_map, hguest] at hthread
  cases hthread
  have hinvited := hparty.invited guest (List.mem_of_getElem? hguest)
  exact ⟨rfl, .waits .finding rfl rfl hinvited.stored hinvited.stranger⟩

/-- A step of one call that suits the others. -/
theorem Hosts.set (h : Hosts guests row before events calls pool) {thread' : Thread}
    {w : World Tables} (hguest : guests[j]? = some guest) (hcall : thread'.call = guest.call)
    (hstands : guest.Stands row w.store
      (Event.stepsOf events (before.threads.length + j) + 1) thread')
    (hothers : ∀ (k : Nat) other thread, j ≠ k → guests[k]? = some other →
      calls[k]? = some thread → other.Stands row w.store
        (Event.stepsOf events (before.threads.length + k)) thread)
    (hkeyed : w.store.Keyed) (hworking : w.store.failSettling = pool.world.store.failSettling)
    (hteams : w.store.teams = pool.world.store.teams) (hclock : w.clock = pool.world.clock)
    (hseats : w.store.membersOf row.id =
      before.world.store.membersOf row.id + (calls.set j thread').countP Thread.succeeded)
    (hroom : (calls.set j thread').countP Thread.succeeded = 0 ∨
      w.store.membersOf row.id ≤ row.memberLimit.toNat) :
    Hosts guests row before (events ++ [.proceeds (before.threads.length + j)])
      (calls.set j thread') ⟨w, before.threads ++ calls.set j thread'⟩ where
  threads := rfl
  length := (List.length_set ..).trans h.length
  keyed := hkeyed
  working := hworking.trans h.working
  active := by
    rw [Tables.findTeam, hteams]
    exact h.active
  unexpired := hclock ▸ h.unexpired
  stands := by
    intro k other thread hother hthread
    have hsteps : Event.stepsOf (events ++ [.proceeds (before.threads.length + j)])
        (before.threads.length + k) =
          Event.stepsOf events (before.threads.length + k) + if j = k then 1 else 0 := by
      simp [Event.stepsOf, Event.thread?]
    rw [hsteps]
    obtain ⟨rfl, rfl⟩ | ⟨hne, hold⟩ := getElem?_set_cases hthread
    · rw [hguest] at hother
      cases hother
      rw [if_pos rfl]
      exact ⟨hcall, hstands⟩
    · rw [if_neg hne]
      exact ⟨(h.stands k other thread hother hold).1, hothers k other thread hne hother hold⟩
  seats := hseats
  room := hroom

/-- A step of one of the calls keeps the guests hosted. -/
theorem Hosts.proceeds (h : Hosts guests row before events calls pool)
    (hparty : Party guests before.world row)
    (hroles : ∀ guest ∈ guests, guest.invitation.role ≠ .owner)
    (hguest : guests[j]? = some guest) (hthread : calls[j]? = some thread) :
    ∃ calls', Hosts guests row before (events ++ [.proceeds (before.threads.length + j)]) calls'
      (pool.step (.proceeds (before.threads.length + j))) := by
  have hmem := List.mem_of_getElem? hguest
  have hinvited := hparty.invited guest hmem
  obtain ⟨hcall, hstands⟩ := h.stands j guest thread hguest hthread
  obtain ⟨thread', w, hstep, hcall', hstands', hcases⟩ := hstands.step hcall hinvited
    (hroles guest hmem) h.keyed h.working h.active (h.unexpired guest hmem)
  have hplace : pool.threads[before.threads.length + j]? = some thread := by
    rw [h.threads, List.getElem?_append_right (Nat.le_add_right _ _), Nat.add_sub_cancel_left]
    exact hthread
  have hset : pool.threads.set (before.threads.length + j) thread' =
      before.threads ++ calls.set j thread' := by
    rw [h.threads, List.set_append_right _ _ (Nat.le_add_right _ _), Nat.add_sub_cancel_left]
  have hcount := countP_set_add (p := Thread.succeeded) thread' hthread
  have hseats := h.seats
  have hroom := h.room
  refine ⟨calls.set j thread', ?_⟩
  have hpool : pool.step (.proceeds (before.threads.length + j)) =
      ⟨w, before.threads ++ calls.set j thread'⟩ := by
    rw [step_proceeds hplace, hstep, ← hset]
  rw [hpool]
  rcases hcases with ⟨rfl, hsame⟩ | ⟨member, s', rfl, henrols, hfree, hwaited, hjoined⟩
  · -- a look at the world moves nobody else
    rw [hsame] at hcount
    refine h.set hguest hcall' hstands' ?_ h.keyed rfl rfl rfl (by omega) (by omega)
    intro k other thread _ hother hk
    exact (h.stands k other thread hother hk).2
  · -- an enrolment takes one of the free seats
    have hmembers := henrols.membersOf_eq
    rw [hinvited.teamId] at hmembers
    rw [hwaited, hjoined] at hcount
    simp only [if_true, Bool.false_eq_true, if_false] at hcount
    refine h.set hguest hcall' hstands' ?_ henrols.keyed henrols.failSettling henrols.teams rfl
      ?_ ?_
    · intro k other thread hne hother hk
      exact (h.stands k other thread hother hk).2.of_enrols henrols hinvited.teamId
        (Guest.key_ne hparty.invitations hother hguest hne.symm)
        (Guest.key_ne hparty.users hother hguest hne.symm)
    · show s'.membersOf row.id = _
      omega
    · show _ ∨ s'.membersOf row.id ≤ _
      omega

/-- Whatever may happen among guests keeps them hosted. -/
theorem Hosts.step (h : Hosts guests row before events calls pool)
    (hparty : Party guests before.world row)
    (hroles : ∀ guest ∈ guests, guest.invitation.role ≠ .owner)
    {event : Event} (hevent : event.AmongGuests guests before.threads.length) :
    ∃ calls', Hosts guests row before (events ++ [event]) calls' (pool.step event) := by
  -- only a step of a thread counts as one
  have hsteps : ∀ i, event.thread? = none →
      Event.stepsOf (events ++ [event]) i = Event.stepsOf events i := by
    intro i hnone
    simp [Event.stepsOf, hnone]
  cases event with
  | begins | failSettling => exact hevent.elim
  | proceeds i =>
    obtain ⟨hfirst, hlast⟩ := hevent
    obtain ⟨j, rfl⟩ := Nat.exists_eq_add_of_le hfirst
    have hj : j < guests.length := by omega
    have hcalls : j < calls.length := h.length ▸ hj
    exact h.proceeds hparty hroles (List.getElem?_eq_getElem hj) (List.getElem?_eq_getElem hcalls)
  | setClock time =>
    refine ⟨calls, { h with unexpired := hevent, stands := ?_ }⟩
    intro j guest thread hguest hthread
    rw [hsteps _ rfl]
    exact h.stands j guest thread hguest hthread
  | insertUser email name =>
    refine ⟨calls, { h with
      keyed := h.keyed.of_eq rfl rfl rfl rfl rfl
      stands := ?_ }⟩
    intro j guest thread hguest hthread
    rw [hsteps _ rfl]
    obtain ⟨hcall, hstands⟩ := h.stands j guest thread hguest hthread
    exact ⟨hcall, hstands.of_eq rfl rfl⟩

/-- So does any number of such events. -/
theorem hosts_run (hk : before.world.store.Keyed) (hparty : Party guests before.world row)
    (hroles : ∀ guest ∈ guests, guest.invitation.role ≠ .owner)
    (hevents : ∀ event ∈ events, event.AmongGuests guests before.threads.length) :
    ∃ calls, Hosts guests row before events calls
      ((before.run (guests.map fun guest => .begins guest.call)).run events) := by
  induction events using List.reverseRecOn with
  | nil => exact ⟨_, hosts_begins hk hparty⟩
  | append_singleton events event ih =>
    obtain ⟨calls, hhosts⟩ := ih fun e he => hevents e (List.mem_append_left _ he)
    rw [run_append_singleton]
    exact hhosts.step hparty hroles (hevents event (List.mem_append_right _ List.mem_cons_self))

/-- When every call has taken its three steps, it has joined or was refused. -/
theorem Hosts.returned (h : Hosts guests row before events calls pool)
    (hsteps : ∀ j < guests.length, 3 ≤ Event.stepsOf events (before.threads.length + j))
    (hguest : guests[j]? = some guest) (hthread : calls[j]? = some thread) :
    (∃ member ∈ pool.world.store.members, thread.result? = some (.ok (.member member)) ∧
      member.teamId = row.id ∧ member.userId = guest.user ∧
        member.role = guest.invitation.role) ∨
    thread.result? = some (.error (.error (.teamFull row.id row.memberLimit))) ∧
      guest.invitation ∈ pool.world.store.invitations ∧
        row.memberLimit.toNat ≤ pool.world.store.membersOf row.id := by
  obtain ⟨hj, -⟩ := List.getElem?_eq_some_iff.mp hguest
  have htaken := hsteps j hj
  obtain ⟨-, hstands⟩ := h.stands j guest thread hguest hthread
  cases hstands with
  | waits phase _ hphase =>
    -- no phase comes after three steps
    cases phase <;> simp only [Guest.Phase.taken] at hphase <;> omega
  | joined hresult hmember hmem => exact .inl ⟨_, hmem, hresult, hmember⟩
  | refused hresult hstored hfull => exact .inr ⟨hresult, hstored, hfull⟩

/-- When all have returned, as many have joined as there was room for. -/
theorem Hosts.succeeded_eq (h : Hosts guests row before events calls pool)
    (hsteps : ∀ j < guests.length, 3 ≤ Event.stepsOf events (before.threads.length + j)) :
    calls.countP Thread.succeeded =
      min guests.length (row.memberLimit.toNat - before.world.store.membersOf row.id) := by
  have hle := List.countP_le_length (p := Thread.succeeded) (l := calls)
  have hlength := h.length
  have hseats := h.seats
  have hroom := h.room
  -- somebody who did not join has seen the team full
  have hfull : calls.countP Thread.succeeded < calls.length →
      row.memberLimit.toNat ≤ pool.world.store.membersOf row.id := by
    intro hlt
    obtain ⟨thread, hmem, hfailed⟩ := List.countP_lt_length_iff.mp hlt
    obtain ⟨j, hj, rfl⟩ := List.getElem_of_mem hmem
    have hguest := List.getElem?_eq_getElem (h.length ▸ hj)
    rcases h.returned hsteps hguest (List.getElem?_eq_getElem hj) with
      ⟨member, -, hresult, -⟩ | ⟨-, -, hfull⟩
    · rw [Thread.succeeded, hresult] at hfailed
      cases hfailed
    · exact hfull
  omega

end Pool

end

/-! ## Pools -/

/-- No invitation is for an owner. -/
def Tables.NoOwnersInvited (s : Tables) : Prop :=
  ∀ i ∈ s.invitations, i.role ≠ .owner

/-- The library invites no owners. -/
theorem Rely.noOwners_governs : (Rely.among Tables.NoOwnersInvited).Governs := by
  refine Rely.among_governs ?_ (fun _ _ h => h) fun _ h => h
  intro call w s result hinv hdeed i hi
  rcases hdeed.invitation_origin (Rely.among_orderly _) hinv hi with
    ⟨j, hj, hoffer⟩ | ⟨config, email, invitee, token, now, expiresAt, -, hsending⟩
  · obtain ⟨-, -, -, hrole, -⟩ := Invitation.offer_eq hoffer
    exact hrole ▸ hinv.2 j hj
  · exact hsending.wellFormed.role

namespace Pool

/-- Pools that start on an empty store invite no owners. -/
theorem noOwners_fits (clock : Instant) (random : RandomSource) (events : List Event) :
    ((start clock random).run events).Fits (Rely.among Tables.NoOwnersInvited) := by
  have hempty : Tables.empty.NoOwnersInvited := fun _ hi => absurd hi List.not_mem_nil
  exact (fits_run Rely.noOwners_governs (fits_nil ⟨Tables.empty_keyed, hempty⟩) events).1

/-- In every pool that starts on an empty store: if users accept invitations to one team
together and nothing else happens, as many join as there are free seats, in whatever order
the calls take their steps. The others are told that the team is full and keep their
pending invitations. -/
theorem free_seats_filled (clock : Instant) (random : RandomSource) (history : List Event)
    (guests : List Guest) (row : Team) (events : List Event)
    (hparty : Party guests ((start clock random).run history).world row)
    (hevents : ∀ event ∈ events,
      event.AmongGuests guests ((start clock random).run history).threads.length)
    (hsteps : ∀ j < guests.length,
      3 ≤ Event.stepsOf events (((start clock random).run history).threads.length + j)) :
    let before := (start clock random).run history
    let last := (before.run (guests.map fun guest => .begins guest.call)).run events
    let free := row.memberLimit.toNat - before.world.store.membersOf row.id
    ∃ calls, last.threads = before.threads ++ calls ∧ calls.length = guests.length ∧
      calls.countP Thread.succeeded = min guests.length free ∧
      last.world.store.membersOf row.id =
        before.world.store.membersOf row.id + min guests.length free ∧
      ∀ (j : Nat) guest thread, guests[j]? = some guest → calls[j]? = some thread →
        (∃ member ∈ last.world.store.members, thread.result? = some (.ok (.member member)) ∧
          member.teamId = row.id ∧ member.userId = guest.user ∧
            member.role = guest.invitation.role) ∨
        thread.result? = some (.error (.error (.teamFull row.id row.memberLimit))) ∧
          guest.invitation ∈ last.world.store.invitations ∧
            guest.invitation.isPending = true := by
  intro before last free
  obtain ⟨hk, hnoOwners⟩ := (noOwners_fits clock random history).inv
  have hroles : ∀ guest ∈ guests, guest.invitation.role ≠ .owner := by
    intro guest hguest
    exact hnoOwners _ (hparty.invited guest hguest).stored
  obtain ⟨calls, hhosts⟩ := hosts_run hk hparty hroles hevents
  have hcount := hhosts.succeeded_eq hsteps
  refine ⟨calls, hhosts.threads, hhosts.length, hcount, ?_, ?_⟩
  · rw [hhosts.seats, hcount]
  · intro j guest thread hguest hthread
    rcases hhosts.returned hsteps hguest hthread with hjoined | ⟨hrefused, hstored, -⟩
    · exact .inl hjoined
    · have hinvited := hparty.invited guest (List.mem_of_getElem? hguest)
      exact .inr ⟨hrefused, hstored, hinvited.pending⟩

/-- A team of two has its founder alone, and two users are invited. -/
def oneSeat : List Event :=
  let act (action : Action) : Event := .begins (.act .default action)
  let steps (i count : Nat) : List Event := List.replicate count (.proceeds i)
  [.insertUser "ann@example.org" "Ann", .insertUser "ben@example.org" "Ben",
    act (.createTeam
      { ownerId := 7
        name := "Core"
        description := none
        visibility := .everyone
        memberLimit := some 2 })] ++ steps 0 4 ++
  act (.sendInvitation 1 7 "ann@example.org" .member) :: steps 1 10 ++
  act (.sendInvitation 1 7 "ben@example.org" .guest) :: steps 2 10

/-- The two, each with the token that was sent. -/
def twoGuests : List Guest :=
  let first := RandomSource.sequence.token 32
  let second := first.2.token 32
  (((start .epoch .sequence).run oneSeat).world.store.invitations.zip [first.1, second.1]).map
    fun (invitation, token) =>
      { config := .default
        invitation
        token := ⟨token⟩
        user := invitation.inviteeId.getD 0
        email := invitation.email }

/-- Both find their invitations, and the second one enters first. -/
def secondFirst : List Event :=
  [.proceeds 3, .proceeds 4, .proceeds 3, .proceeds 4, .proceeds 4, .proceeds 3]

/-- There is one seat for the two, and one of them takes it. -/
theorem free_seats_filled_of_two_guests :
    ∃ calls, (((start .epoch .sequence).run oneSeat).run
        (twoGuests.map fun guest => .begins guest.call) |>.run secondFirst).threads =
          ((start .epoch .sequence).run oneSeat).threads ++ calls ∧
      calls.length = 2 ∧ calls.countP Thread.succeeded = 1 ∧
      (((start .epoch .sequence).run oneSeat).run
        (twoGuests.map fun guest => .begins guest.call) |>.run
          secondFirst).world.store.membersOf 1 = 2 := by
  let row : Team :=
    { id := 1
      ownerId := 7
      name := "Core"
      slug := "core"
      description := none
      visibility := .everyone
      memberLimit := 2
      status := .active
      createdAt := .epoch
      updatedAt := .epoch }
  have hchecked : (((start .epoch .sequence).run oneSeat).world.store.findTeam row.id = some row ∧
      ((start .epoch .sequence).run oneSeat).world.store.failSettling = false ∧
      (∀ guest ∈ twoGuests,
        guest.Invited ((start .epoch .sequence).run oneSeat).world row.id) ∧
      (twoGuests.map (·.invitation.id)).Nodup ∧ (twoGuests.map (·.user)).Nodup) ∧
      (∀ event ∈ secondFirst,
        event.AmongGuests twoGuests ((start .epoch .sequence).run oneSeat).threads.length) ∧
      (∀ j < twoGuests.length, 3 ≤ Event.stepsOf secondFirst
        (((start .epoch .sequence).run oneSeat).threads.length + j)) ∧
      twoGuests.length = 2 ∧
      ((start .epoch .sequence).run oneSeat).world.store.membersOf 1 = 1 := by
    decide +kernel
  obtain ⟨⟨hactive, hworking, hinvited, hinvitations, husers⟩, hevents, hsteps, htwo, hone⟩ :=
    hchecked
  obtain ⟨calls, hthreads, hlength, hcount, hmembers, -⟩ :=
    free_seats_filled .epoch .sequence oneSeat twoGuests row secondFirst
      ⟨hactive, hworking, hinvited, hinvitations, husers⟩ hevents hsteps
  rw [htwo, hone] at hcount hmembers
  exact ⟨calls, hthreads, hlength.trans htwo, hcount, hmembers⟩

end Pool

end Roster
