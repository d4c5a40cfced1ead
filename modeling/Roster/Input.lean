import Roster.Slug

/-!
# Checked input: e-mail addresses and team names

* `Email.normalize` — the form in which addresses are stored and compared;
* `Email.validate` — accepts a normalized address by its grammar;
* `TeamName.validate` — trims a team name and checks that it can be used.

`InvalidInput` lists the reasons for a refusal, with their wording.
-/

namespace Roster

/-- Why an e-mail address or a team name is refused. -/
inductive InvalidInput
  | emailEmpty
  | emailTooLong
  | emailMalformed
  | nameEmpty
  | nameTooLong
  | nameWithoutSlug
deriving DecidableEq, Repr

/-- The wording of a refusal. -/
def InvalidInput.message : InvalidInput → String
  | .emailEmpty => "Email cannot be empty"
  | .emailTooLong => "Email is too long (max 254 characters)"
  | .emailMalformed => "Invalid email format"
  | .nameEmpty => "Team name cannot be empty"
  | .nameTooLong => "Team name is too long (max 100 characters)"
  | .nameWithoutSlug => "Team name must contain at least one letter or digit"

namespace Email

/-! ## Addresses -/

/-- The longest address, in bytes of its UTF-8 form. -/
def maxBytes : Nat := 254

/-- Letters of a top-level domain. -/
def isLetter (c : Char) : Bool :=
  'a' ≤ c && c ≤ 'z'

/-- Characters of the part before the at sign. -/
def isLocalChar (c : Char) : Bool :=
  isLetter c || ('0' ≤ c && c ≤ '9') || c == '.' || c == '_' || c == '%' || c == '+' || c == '-'

/-- Characters of the part after the at sign. -/
def isHostChar (c : Char) : Bool :=
  isLetter c || ('0' ≤ c && c ≤ '9') || c == '.' || c == '-'

/-- A host and a top-level domain of at least two letters, with a dot between
them. The top-level domain is read from the end. -/
def isDomain (domain : List Char) : Bool :=
  let reversed := domain.reverse
  match reversed.dropWhile isLetter with
  | '.' :: host => 2 ≤ (reversed.takeWhile isLetter).length && !host.isEmpty && host.all isHostChar
  | _ => false

/-- A non-empty local part, an at sign and a domain. -/
def isAddress (text : List Char) : Bool :=
  match text.dropWhile isLocalChar with
  | '@' :: domain => !(text.takeWhile isLocalChar).isEmpty && isDomain domain
  | _ => false

/-- Trims and lowercases an address, so that look-ups ignore case and blanks
around it. -/
def normalize (email : String) : String :=
  String.ofList (Text.lowercase (Text.trim email.toList))

/-- Checks an address that is already normalized. -/
def validate (email : String) : Except InvalidInput Unit :=
  if email = "" then .error .emailEmpty
  else if maxBytes < email.utf8ByteSize then .error .emailTooLong
  else if isAddress email.toList then .ok ()
  else .error .emailMalformed

/-- Equality of two texts up to the case of ASCII letters. -/
def sameIgnoringCase (left right : List Char) : Bool :=
  left.map Char.toLower == right.map Char.toLower

end Email

namespace TeamName

/-! ## Team names -/

/-- The longest team name, in characters. -/
def maxLength : Nat := 100

/-- Returns the trimmed name if it is neither empty nor too long and has a
slug. -/
def validate (name : String) : Except InvalidInput String :=
  let trimmed := Text.trim name.toList
  if trimmed = [] then .error .nameEmpty
  else if maxLength < trimmed.length then .error .nameTooLong
  else if Slug.derive trimmed = [] then .error .nameWithoutSlug
  else .ok (String.ofList trimmed)

end TeamName

end Roster
