import Roster.Program

/-!
# Races at chosen points

Another caller can change the store between two steps of a program. A `Race`
makes that happen at a chosen `Point`: the first time the program comes there,
the given calls are made on the store by somebody else, once.

* `Point.before`, `Point.after` — the point that lies right before or right
  after the answer to a request;
* `Program.runRacing` — a program run among races;
* `Program.runRacing_nil` — without races, this is a program run alone.
-/

namespace Roster

/-- Where another caller can slip in. The first six lie before the store is
called, the last three after it has answered. -/
inductive Point
  | openingUnit
  | updatingTeam
  | settingRole
  | removingMember
  | creatingInvitation
  | settlingInvitation
  | foundTeam
  | listedTeams
  | foundMember
deriving DecidableEq

namespace Point

/-- The point right before a request is answered. -/
def before : {α : Type} → Request α → Option Point
  | _, .atomically _ => some .openingUnit
  | _, .store (.updateTeam _) => some .updatingTeam
  | _, .store (.setRole _ _ _ _) => some .settingRole
  | _, .store (.removeMember _ _) => some .removingMember
  | _, .store (.createInvitation _) => some .creatingInvitation
  | _, .store (.settleInvitation _ _ _) => some .settlingInvitation
  | _, _ => none

/-- The point right after a request is answered. -/
def after : {α : Type} → Request α → Option Point
  | _, .store (.findTeam _) => some .foundTeam
  | _, .store (.listTeamsOf _ _) => some .listedTeams
  | _, .store (.findMember _ _) => some .foundMember
  | _, _ => none

end Point

/-- A store call that is fixed once the time is known, or a failure to make
one. -/
abbrev PlannedCall := Instant → Except TeamError AnyCall

/-- Calls that somebody else makes at a point. -/
structure Race where
  point : Point
  calls : List PlannedCall

variable {σ α : Type} [Store σ]

/-- Makes one planned call on a store. -/
def PlannedCall.perform (call : PlannedCall) (time : Instant) (s : σ) : Outcome σ Answer :=
  match call time with
  | .error e => ⟨.error e, [], s⟩
  | .ok ⟨_, call⟩ =>
    let outcome := Store.perform call s
    ⟨outcome.result.map (.ofStore call), outcome.log, outcome.store⟩

/-- What interference leaves behind: the races to come, what the calls made
gave back, the lines they logged, and the world. -/
structure Interference (σ : Type) where
  races : List Race
  answers : List (Except TeamError Answer)
  log : List LogLine
  world : World σ

/-- Makes planned calls one after another, whether or not they fail. -/
def World.performAll (w : World σ) :
    List PlannedCall → List (Except TeamError Answer) × List LogLine × World σ
  | [] => ([], [], w)
  | call :: rest =>
    let outcome := call.perform w.clock w.store
    let (answers, log, last) := { w with store := outcome.store }.performAll rest
    (outcome.result :: answers, outcome.log ++ log, last)

/-- Lets the races at a point happen. -/
def World.interfere (w : World σ) (races : List Race) : Option Point → Interference σ
  | none => ⟨races, [], [], w⟩
  | some point =>
    let (now, later) := races.partition (·.point = point)
    let (answers, log, world) := w.performAll (now.flatMap (·.calls))
    ⟨later, answers, log, world⟩

/-- A program run to its end among races, with what the races gave back. -/
structure RacedRun (σ α : Type) extends Run σ α where
  answers : List (Except TeamError Answer)

/-- Runs a program among races. -/
def Program.runRacing : Program α → List Race → World σ → RacedRun σ α
  | .done result, _, w => ⟨⟨result, [], w⟩, []⟩
  | .ask request next, races, w =>
    let early := w.interfere races (Point.before request)
    let turn := early.world.answer request
    let late := turn.world.interfere early.races (Point.after request)
    let rest := (next turn.reply).runRacing late.races late.world
    ⟨⟨rest.result, early.log ++ turn.log ++ late.log ++ rest.log, rest.world⟩,
      early.answers ++ late.answers ++ rest.answers⟩

theorem World.interfere_nil (w : World σ) (point : Option Point) :
    w.interfere [] point = ⟨[], [], [], w⟩ := by
  cases point <;> rfl

/-- A program among no races runs as it does alone. -/
theorem Program.runRacing_nil (program : Program α) (w : World σ) :
    program.runRacing [] w = ⟨program.run w, []⟩ := by
  induction program generalizing w with
  | done result => rfl
  | ask request next ih =>
    simp [runRacing, World.interfere_nil, ih, run]

end Roster
