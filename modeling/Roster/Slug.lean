import Roster.Text.Blank
import Roster.Text.Lowercase

/-!
# Slugs

The slug of a team name is what stands for it in an address: lowercase letters
and digits of ASCII, with single hyphens between the words.

* `collapse` — every run of other characters becomes one hyphen;
* `derive` — collapse the lowercase form, drop the outer hyphens, cut at
  `maxLength`, and drop a hyphen that the cut left at the end;
* `slugify` — the same on strings.
-/

namespace Roster.Slug

/-- The longest slug, in characters. -/
def maxLength : Nat := 50

/-- The characters that a slug keeps. -/
def isWordChar (c : Char) : Bool :=
  ('a' ≤ c && c ≤ 'z') || ('0' ≤ c && c ≤ '9')

/-- Replaces each run of characters that a slug does not keep by one hyphen. -/
def collapse : List Char → List Char
  | [] => []
  | c :: rest =>
    if isWordChar c then c :: collapse rest
    else match collapse rest with
      | '-' :: tail => '-' :: tail
      | tail => '-' :: tail

/-- The slug of a name. -/
def derive (name : List Char) : List Char :=
  let isHyphen := fun c : Char => c == '-'
  let inner := Text.dropEndWhile isHyphen
    ((collapse (Text.lowercase name)).dropWhile isHyphen)
  Text.dropEndWhile isHyphen (inner.take maxLength)

end Roster.Slug

namespace Roster

/-- The slug of a team name. -/
def slugify (name : String) : String :=
  String.ofList (Slug.derive name.toList)

end Roster
