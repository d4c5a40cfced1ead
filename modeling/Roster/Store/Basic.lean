import Roster.Invitation
import Roster.Log
import Roster.Member
import Roster.Page
import Roster.Team

/-!
# Stores

A store keeps users, teams, members and invitations.

* `StoreCall` — the calls a store answers, each with the type of its answer;
* `Outcome` — what a call gives back: a result or a failure, the lines it
  logged, and the store after it;
* `Store` — what every kind of store provides.

Deleted teams are invisible to every look-up. An invitation changes its status
only while it is pending, so of two callers at most one wins.
-/

namespace Roster

/-- The calls a store answers; the index is the type of a successful answer. -/
inductive StoreCall : Type → Type
  | createTeam (draft : TeamDraft) : StoreCall Team
  | findTeam (team : Int) : StoreCall (Option Team)
  | findTeamBySlug (owner : Int) (slug : String) : StoreCall (Option Team)
  | listTeamsOf (user : Int) (page : Page) : StoreCall (List Team)
  | updateTeam (team : Team) : StoreCall Team
  | deleteTeam (team : Int) (now : Instant) : StoreCall Unit
  | addMember (draft : MemberDraft) : StoreCall Member
  | findMember (team user : Int) : StoreCall (Option Member)
  | listMembers (team : Int) : StoreCall (List Member)
  | listProfiles (team : Int) : StoreCall (List MemberProfile)
  | setRole (team user : Int) (role : Role) (now : Instant) : StoreCall Member
  | removeMember (team user : Int) : StoreCall Unit
  | countMembers (team : Int) : StoreCall UInt32
  | createInvitation (draft : InvitationDraft) : StoreCall Invitation
  | findInvitation (invitation : Int) : StoreCall (Option Invitation)
  | findInvitationByToken (tokenHash : String) : StoreCall (Option Invitation)
  | findPendingInvitation (team : Int) (email : String) : StoreCall (Option Invitation)
  | listInvitationsOf (team : Int) (status : Option InvitationStatus) (page : Page) :
    StoreCall (List Invitation)
  | listInvitationsTo (email : String) (status : Option InvitationStatus) (page : Page) :
    StoreCall (List Invitation)
  | settleInvitation (invitation : Int) (status : InvitationStatus) (now : Instant) :
    StoreCall (Option Invitation)
  | revokePending (team : Int) : StoreCall Nat
  | expireStale (team : Option Int) (now : Instant) : StoreCall Nat

/-- What came of an operation on a store of type `σ`. -/
structure Outcome (σ α : Type) where
  result : Except TeamError α
  log : List LogLine
  store : σ

/-- Goes on with the result of an operation, on the store that it left; a
failure ends it. -/
def Outcome.andThen {σ α β : Type} (outcome : Outcome σ α) (f : α → σ → Outcome σ β) :
    Outcome σ β :=
  match outcome.result with
  | .ok a =>
    let rest := f a outcome.store
    { rest with log := outcome.log ++ rest.log }
  | .error e => ⟨.error e, outcome.log, outcome.store⟩

section

variable {σ α β : Type} (log : List LogLine) (s : σ) (f : α → σ → Outcome σ β)

@[simp]
theorem Outcome.andThen_ok (a : α) :
    (Outcome.mk (.ok a) log s).andThen f = { f a s with log := log ++ (f a s).log } := rfl

@[simp]
theorem Outcome.andThen_error (e : TeamError) :
    (Outcome.mk (.error e) log s).andThen f = ⟨.error e, log, s⟩ := rfl

end

/-- A kind of store. `keepsOpen` says whether a unit of work that has been
committed goes on working on the store. -/
class Store (σ : Type) where
  empty : σ
  perform : {α : Type} → StoreCall α → σ → Outcome σ α
  insertUser : (email name : String) → σ → Outcome σ User
  findUser : Int → σ → Option User
  findUserByEmail : String → σ → Option User
  keepsOpen : Bool

/-! ## Shared rules of listings -/

/-- The largest number of members that a count tells. -/
def maxCount : Nat := 4294967295

/-- Inserts an entry before the first one that it comes before. -/
def insertBefore {α : Type} (comesBefore : α → α → Bool) (entry : α) : List α → List α
  | [] => [entry]
  | head :: tail =>
    if comesBefore entry head then entry :: head :: tail
    else head :: insertBefore comesBefore entry tail

/-- The order of members by key: team, then user. -/
def keyBefore (team user otherTeam otherUser : Int) : Bool :=
  team < otherTeam || (team = otherTeam && user < otherUser)

end Roster
