import Roster.Action
import Roster.Race

/-!
# Sessions

A session is one store, clock and source of random bytes, on which commands run
one after another.

* `Command` — actions, membership rules, store calls, scopes, and changes of
  the surroundings;
* `Session.step` — one command: its result, its log lines, and what the races
  it was run among gave back;
* `Instruction` — a command, or a change of the store that no caller of the
  library can make; `Session.run` follows a list of them;
* `StoreView.of` — what the store shows in the end, by id.

A scope makes store calls that are undone in the end unless it is committed.
-/

namespace Roster

/-- One step of a scope. -/
inductive ScopeStep
  | call (call : PlannedCall)
  | commit

/-- What a session can be told to do on any kind of store. -/
inductive Command
  | act (action : Action)
  | acceptIssued (invitation user : Int) (email : String)
  | rejectIssued (invitation : Int) (email : String)
  | membership (call : MembershipCall)
  | store (call : PlannedCall)
  | scope (steps : List ScopeStep)
  | atomically (calls : List PlannedCall)
  | insertUser (email name : String)
  | findUser (user : Int)
  | findUserByEmail (email : String)
  | setClock (time : Instant)
  | advanceClock (by_ : Duration)
  | configure (config : Config)
  | refuse (e : TeamError)

/-- A command among races, or an operation on the store itself. -/
inductive Instruction (σ : Type)
  | command (command : Command) (races : List Race)
  | maintain (operation : σ → Outcome σ Answer)

/-- The state of a session; `issued` holds the tokens sent so far, by
invitation, the latest first. -/
structure Session (σ : Type) where
  world : World σ
  config : Config
  issued : List (Int × String)

/-- What one command came to. -/
structure Report where
  result : Except Failure Answer
  log : List LogLine
  answers : List (Except TeamError Answer)

variable {σ α : Type} [Store σ]

/-! ## Scopes -/

/-- A scope while it runs: the store as it would be committed, and whether it
has been. -/
structure Scope (σ : Type) where
  store : σ
  committed : Bool

/-- Whether the scope still takes steps. -/
def Scope.isUsable (scope : Scope σ) : Bool :=
  !scope.committed || Store.keepsOpen σ

/-- What a step on a committed scope comes to, if the store does not keep
scopes open. -/
def Scope.closed : TeamError :=
  .internal "transaction already committed"

/-- Takes one step on a scope. -/
def Scope.step (scope : Scope σ) (time : Instant) : ScopeStep → Outcome (Scope σ) Answer
  | .commit =>
    if scope.isUsable then ⟨.ok .unit, [], { scope with committed := true }⟩
    else ⟨.error Scope.closed, [], scope⟩
  | .call planned =>
    match planned time with
    | .error e => ⟨.error e, [], scope⟩
    | .ok ⟨_, call⟩ =>
      if scope.isUsable then
        let outcome := Store.perform call scope.store
        ⟨outcome.result.map (.ofStore call), outcome.log,
          { scope with store := outcome.store }⟩
      else ⟨.error Scope.closed, [], scope⟩

/-- Takes steps in order, whether or not they fail. -/
def Scope.run (time : Instant) :
    List ScopeStep → Scope σ → List (Except TeamError Answer) × List LogLine × Scope σ
  | [], scope => ([], [], scope)
  | step :: rest, scope =>
    let outcome := scope.step time step
    let (results, log, last) := Scope.run time rest outcome.store
    (outcome.result :: results, outcome.log ++ log, last)

/-- Opens a scope, takes the steps, and drops it: what was not committed is
undone. -/
def World.runScope (w : World σ) (steps : List ScopeStep) : Turn σ Answer :=
  let (results, log, scope) := Scope.run w.clock steps ⟨w.store, false⟩
  ⟨.each results, log, { w with store := if scope.committed then scope.store else w.store }⟩

/-! ## Commands -/

namespace Session

/-- A new session on an empty store. -/
def start (σ : Type) [Store σ] (clock : Instant) (random : RandomSource) (config : Config) :
    Session σ :=
  ⟨⟨Store.empty, clock, random⟩, config, []⟩

/-- The token issued for an invitation, or a text that no token is. -/
def tokenOf (session : Session σ) (invitation : Int) : Secret :=
  ⟨(session.issued.lookup invitation).getD s!"missing-{invitation}"⟩

/-- Remembers the token of an invitation that was just sent. -/
def remember (session : Session σ) : Except Failure Answer → Session σ
  | .ok (.sent sent) =>
    { session with issued := (sent.invitation.id, sent.token.plain) :: session.issued }
  | _ => session

/-- Runs a program among races. -/
def runProgram (session : Session σ) (races : List Race) (toAnswer : α → Answer)
    (program : Program α) : Report × Session σ :=
  let run := program.runRacing races session.world
  let result := run.result.map toAnswer
  (⟨result, run.log, run.answers⟩,
    { session with world := run.world }.remember result)

/-- Takes over a result that needed no program. -/
def reply (session : Session σ) (result : Except Failure Answer) : Report × Session σ :=
  (⟨result, [], []⟩, session)

/-- Takes over the outcome of an operation on the store. -/
def take (session : Session σ) (outcome : Outcome σ Answer) : Report × Session σ :=
  (⟨Failure.ofResult outcome.result, outcome.log, []⟩,
    { session with world := { session.world with store := outcome.store } })

/-- Runs an action among races. -/
def act (session : Session σ) (races : List Race) (action : Action) : Report × Session σ :=
  session.runProgram races action.answer (action.program session.config)

/-- Runs one command among races. -/
def step (session : Session σ) (races : List Race) : Command → Report × Session σ
  | .act action => session.act races action
  | .acceptIssued invitation user email =>
    session.act races (.acceptInvitation (session.tokenOf invitation) user email)
  | .rejectIssued invitation email =>
    session.act races (.rejectInvitation (session.tokenOf invitation) email)
  | .membership call => session.runProgram races call.answer call.program
  | .store planned =>
    match planned session.world.clock with
    | .error e => session.reply (.error (.error e))
    | .ok ⟨_, call⟩ => session.runProgram races (.ofStore call) (.ofWork (.perform call))
  | .scope steps =>
    let early := session.world.interfere races (some .openingUnit)
    let turn := early.world.runScope steps
    (⟨.ok turn.reply, early.log ++ turn.log, early.answers⟩,
      { session with world := turn.world })
  | .atomically calls =>
    let planned := calls.map (· session.world.clock)
    session.runProgram races .all (.atomically (.batch planned))
  | .insertUser email name =>
    let outcome := Store.insertUser email name session.world.store
    session.take { outcome with result := outcome.result.map .user }
  | .findUser user => session.reply (.ok (.foundUser (Store.findUser user session.world.store)))
  | .findUserByEmail email =>
    session.reply (.ok (.foundUser (Store.findUserByEmail email session.world.store)))
  | .setClock time =>
    ({ session with world := { session.world with clock := time } }).reply (.ok (.time time))
  | .advanceClock duration =>
    match session.world.clock.add? duration with
    | none => session.reply (.error .timeOverflow)
    | some time =>
      ({ session with world := { session.world with clock := time } }).reply (.ok (.time time))
  | .configure config => ({ session with config }).reply (.ok .unit)
  | .refuse e => session.reply (.error (.error e))

/-- Follows one instruction. -/
def follow (session : Session σ) : Instruction σ → Report × Session σ
  | .command command races => session.step races command
  | .maintain operation => session.take (operation session.world.store)

/-- Follows instructions in order. -/
def run : List (Instruction σ) → Session σ → List Report × Session σ
  | [], session => ([], session)
  | instruction :: rest, session =>
    let (report, next) := session.follow instruction
    let (reports, last) := run rest next
    (report :: reports, last)

end Session

/-! ## What a store shows -/

/-- What a store shows of one team. -/
structure TeamView where
  id : Int
  team : Except TeamError (Option Team)
  members : Except TeamError (List Member)
  invitations : Except TeamError (List Int)

/-- Whether there is nothing to show: no active team, no members and no
invitations. -/
def TeamView.isBlank (view : TeamView) : Bool :=
  match view.team, view.members, view.invitations with
  | .ok none, .ok [], .ok [] => true
  | _, _, _ => false

/-- What a store shows of the first ids. -/
structure StoreView where
  users : List User
  invitations : List (Except TeamError Invitation)
  teams : List TeamView

/-- What a store shows of the ids from one to `last`. -/
def StoreView.of (s : σ) (last : Nat) : StoreView :=
  let ids := (List.range last).map fun (n : Nat) => (n : Int) + 1
  let team (id : Int) : TeamView :=
    { id
      team := (Store.perform (.findTeam id) s).result
      members := (Store.perform (.listMembers id) s).result
      invitations := ((Store.perform (.listInvitationsOf id none ⟨Page.maxLimit, 0⟩) s).result.map
        (·.map (·.id))) }
  { users := ids.filterMap fun id => Store.findUser id s
    invitations := ids.filterMap fun id =>
      match (Store.perform (.findInvitation id) s).result with
      | .ok found => found.map .ok
      | .error e => some (.error e)
    teams := (ids.map team).filter (!·.isBlank) }

end Roster
