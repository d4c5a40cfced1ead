import Roster.Text.Blank
import Roster.Time.Instant

/-!
# Settings

`Config` holds what an operator decides: the member limit of new teams, the
length and lifetime of invitation tokens, and where acceptance links point.
Three settings come ready-made: `Config.default`, `Config.development` and
`Config.strict`.
-/

namespace Roster

/-- The settings of the library. -/
structure Config where
  defaultMemberLimit : UInt32
  tokenLength : Nat
  expiry : Duration
  baseUrl : Option String
deriving DecidableEq

namespace Config

/-- Small teams, tokens of 32 bytes, a week to answer. -/
def default : Config := ⟨5, 32, Duration.ofDays 7, none⟩

/-- Larger teams and a month to answer. -/
def development : Config := ⟨50, 32, Duration.ofDays 30, none⟩

/-- Longer tokens and a day to answer. -/
def strict : Config := ⟨5, 48, Duration.ofDays 1, none⟩

/-- The acceptance link for a token, if there is a base address. -/
def acceptUrl (config : Config) (token : String) : Option String :=
  config.baseUrl.map fun base =>
    String.ofList (Text.dropEndWhile (· == '/') base.toList) ++
      "/invitations/accept?token=" ++ token

end Config

end Roster
