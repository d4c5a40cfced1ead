import Roster.Proofs.Database.Calls
import Roster.Proofs.Session

/-!
# The two stores agree

A session shows the same on tables in memory and on a database, command by
command, as long as no instant leaves the years of four digits and no address is
inserted twice.

* `Database.Holds` — the database holds the records of the tables, under the same
  ids, and gives out the same ids next;
* `Session.mirror` — the session on the mirror of its tables, and
  `Session.step_mirror` — an ordinary command does the same in both;
* `Session.play_mirror` — so do commands in order, by induction on them;
* `Session.stores_agree` — the reports of the two sessions are equal, and what is
  left holds the same.
-/

namespace Roster

/-! ## What a database holds -/

/-- The rows of the database are read as the records of the tables, in the same order, and
both go on with the same ids. -/
structure Database.Holds (db : Database) (s : Tables) : Prop where
  users : db.users = s.users
  teams : readAll TeamRow.read db.teams = .ok s.teams
  members : readAll MemberRow.read db.members = .ok s.members
  invitations : readAll InvitationRow.read db.invitations = .ok s.invitations
  lastIds : db.lastUserId = s.lastUserId ∧ db.lastTeamId = s.lastTeamId ∧
    db.lastInvitationId = s.lastInvitationId

namespace Database

/-- A mirror holds what it mirrors. -/
theorem of_holds (s : Tables) : (of s).Holds s where
  users := rfl
  teams := (readAll_map TeamRow.read_of s.teams).trans (congrArg _ (List.map_id _))
  members := (readAll_map MemberRow.read_of s.members).trans (congrArg _ (List.map_id _))
  invitations := (readAll_map InvitationRow.read_of s.invitations).trans
    (congrArg _ (List.map_id _))
  lastIds := ⟨rfl, rfl, rfl⟩

/-- Inserting a user under an address that nobody has. -/
theorem insertUser_of {s : Tables} {email : String} (name : String)
    (hnew : Email.normalize email ∉ s.users.map (·.email)) :
    Store.insertUser email name (of s) = (Store.insertUser email name s).mirror := by
  have hfree : ¬ (of s).users.any (fun u => u.email = Email.normalize email) = true := by
    rw [List.any_eq_true]
    rintro ⟨u, hu, heq⟩
    exact hnew (of_decide_eq_true heq ▸ List.mem_map_of_mem hu)
  exact if_neg hfree

end Database

namespace Session

/-! ## Commands -/

/-- The session on the mirror of its tables. -/
def mirror (session : Session Tables) : Session Database :=
  ⟨session.world.mirror, session.config, session.issued⟩

/-- The clock and the instants that stores compare have years of four digits. -/
structure Dated (session : Session Tables) : Prop where
  clock : session.world.clock.InFourDigits
  store : session.world.store.Dated

instance (session : Session Tables) : Decidable session.Dated :=
  decidable_of_iff (session.world.clock.InFourDigits ∧ session.world.store.Dated)
    ⟨fun h => ⟨h.1, h.2⟩, fun h => ⟨h.clock, h.store⟩⟩

variable {session : Session Tables}

/-- A command makes the same call. -/
theorem call?_mirror (command : Command) :
    session.mirror.call? command = session.call? command := by
  cases command <;> rfl

/-- The run of a call is taken over alike. -/
theorem finish_mirror (run : Run Tables Answer) :
    session.mirror.finish run.mirror =
      ((session.finish run).1, (session.finish run).2.mirror) := by
  obtain ⟨result, log, world⟩ := run
  simp only [finish, Run.mirror, remember]
  split <;> rfl

/-- An ordinary command does the same on the mirror, if the session is ready and an address
that is inserted is new. -/
theorem step_mirror {command : Command} (hordinary : command.isOrdinary = true)
    (hready : session.world.Ready)
    (hnew : ∀ address ∈ command.insertedAddress?,
      address ∉ session.world.store.users.map (·.email)) :
    session.mirror.step [] command =
      ((session.step [] command).1, (session.step [] command).2.mirror) := by
  cases hcall : session.call? command with
  | some call =>
    rw [step_call hcall, step_call ((call?_mirror command).trans hcall), ← finish_mirror]
    exact congrArg _ (Program.run_mirror (call.suits hready))
  | none =>
    cases command with
    | insertUser email name =>
      have hinsert := Database.insertUser_of name (hnew _ rfl)
      simp only [step, take, mirror, World.mirror, hinsert]
      rfl
    | advanceClock duration =>
      simp only [step, mirror, World.mirror]
      split <;> rfl
    | act | acceptIssued | rejectIssued | membership => cases hcall
    | store | scope | atomically => cases hordinary
    | _ => rfl

/-! ## Sessions -/

/-- Ordinary commands in order do the same on the mirror, from well-formed tables whose users
have other addresses than those that are inserted later. -/
theorem play_mirror (session : Session Tables) {commands : List Command}
    (hordinary : ∀ command ∈ commands, command.isOrdinary = true)
    (hproper : session.world.store.Proper) (hworks : session.world.store.failSettling = false)
    (hdistinct : (session.world.store.users.map (·.email) ++
      commands.filterMap Command.insertedAddress?).Nodup)
    (hdated : ∀ n ≤ commands.length, (session.play (commands.take n)).2.Dated) :
    session.mirror.play commands = ((session.play commands).1, (session.play commands).2.mirror) := by
  induction commands generalizing session with
  | nil => rfl
  | cons command rest ih =>
    obtain ⟨hfirst, hrest⟩ := List.forall_mem_cons.mp hordinary
    obtain ⟨hclock, hstore⟩ := hdated 0 (Nat.zero_le _)
    obtain ⟨husers, hsettling⟩ := step_users session hfirst
    -- the inserted address comes before those of the rest
    have hsplit : (command :: rest).filterMap Command.insertedAddress? =
        command.insertedAddress?.toList ++ rest.filterMap Command.insertedAddress? := by
      cases h : command.insertedAddress? <;> simp [h]
    rw [hsplit, ← List.append_assoc] at hdistinct
    have hnew : ∀ address ∈ command.insertedAddress?,
        address ∉ session.world.store.users.map (·.email) := by
      intro address hinserted hold
      have hdisjoint := List.disjoint_of_nodup_append hdistinct.of_append_left
      exact hdisjoint hold (Option.mem_toList.mpr hinserted)
    have hstep := step_mirror hfirst ⟨hproper, hstore, hclock, hworks⟩ hnew
    have hplay := ih (session.step [] command).2 hrest (step_proper hfirst hproper)
      (hsettling.trans hworks) (husers ▸ hdistinct)
      fun n hn => hdated (n + 1) (Nat.succ_le_succ hn)
    rw [play_cons, play_cons, hstep, hplay]

/-- Two sessions follow the same ordinary commands from the start, with the same clock,
random bytes and settings, one on tables in memory and one on a database. The addresses of
inserted users are distinct once normalized, and whenever a command has ended, the clock
and the stored instants have years of four digits. Then every command comes to the same
result or failure with the same log lines, and in the end the database holds the records of
the tables under the same ids. -/
theorem stores_agree (clock : Instant) (random : RandomSource) (config : Config)
    (commands : List Command) (hordinary : ∀ command ∈ commands, command.isOrdinary = true)
    (hdistinct : (commands.filterMap Command.insertedAddress?).Nodup)
    (hdated : ∀ n ≤ commands.length,
      ((start Tables clock random config).play (commands.take n)).2.Dated) :
    let memory := (start Tables clock random config).play commands
    let database := (start Database clock random config).play commands
    database.1 = memory.1 ∧ database.2.world.store.Holds memory.2.world.store := by
  -- an empty database mirrors empty tables
  have hplay : (start Database clock random config).play commands = _ :=
    play_mirror (start Tables clock random config) hordinary Tables.empty_proper rfl hdistinct
      hdated
  intro memory database
  rw [show database = _ from hplay]
  exact ⟨rfl, Database.of_holds _⟩

/-- A team is founded and lowered to a single place, so that an invitation finds no room; it
is widened, and the invitation is sent and accepted a minute later. -/
def admitting : List Command :=
  [.insertUser "ada@example.org" "Ada",
    .insertUser " Bob@Example.org " "Bob",
    .act (.createTeam
      { ownerId := 1
        name := "Compilers"
        description := none
        visibility := .everyone
        memberLimit := some 1 }),
    .act (.sendInvitation 1 1 "bob@example.org" .member),
    .act (.updateTeam
      { teamId := 1
        requesterId := 1
        name := none
        description := none
        visibility := none
        memberLimit := some 2 }),
    .act (.sendInvitation 1 1 "bob@example.org" .member),
    .advanceClock (Duration.ofSeconds 60 1),
    .acceptIssued 1 2 "bob@example.org"]

/-- Both stores admit the second member. -/
theorem admitting_agrees :
    let memory := (start Tables .epoch .sequence .default).play admitting
    let database := (start Database .epoch .sequence .default).play admitting
    memory.2.world.store.membersOf 1 = 2 ∧
      database.1 = memory.1 ∧ database.2.world.store.Holds memory.2.world.store := by
  have hsuits : (admitting.filterMap Command.insertedAddress?).Nodup ∧
      (∀ n ≤ admitting.length,
        ((start Tables .epoch .sequence .default).play (admitting.take n)).2.Dated) ∧
      ((start Tables .epoch .sequence .default).play admitting).2.world.store.membersOf 1 = 2 := by
    decide +kernel
  obtain ⟨hdistinct, hdated, hadmitted⟩ := hsuits
  exact ⟨hadmitted, stores_agree .epoch .sequence .default admitting (by decide) hdistinct hdated⟩

end Session

end Roster
