import Roster.Text.CaseTable

/-!
# Lowercase

`lowercase` is the full, language-independent lowercase mapping of a text:

* `lowerChar` — the mapping of one character, by itself;
* `lowerFrom` — the mapping along a text, which treats the Greek capital sigma
  by its place: at the end of a word it becomes the final form.

A sigma ends a word when a letter stands before it and none after it, where
`meetsLetter` looks past the characters that are ignored for case.
-/

namespace Roster.Text

/-- The code point of the simple lowercase partner, or the code point itself. -/
def lowerCode (code : Nat) : Nat :=
  match lowerRanges.find? (·.covers code) with
  | some range => ((code : Int) + range.distance).toNat
  | none => code

/-- The lowercase form of one character, whatever stands around it. -/
def lowerChar (c : Char) : List Char :=
  if c.toNat = 0x130 then [Char.ofNat 0x69, Char.ofNat 0x307]
  else [Char.ofNat (lowerCode c.toNat)]

/-- Whether the first character that counts for case is a letter with case. -/
def meetsLetter : List Char → Bool
  | [] => false
  | c :: rest => if inRanges skippedRanges c then meetsLetter rest else inRanges casedRanges c

/-- The Greek capital sigma. -/
def capitalSigma : Char := Char.ofNat 0x3A3

/-- The small sigma inside a word. -/
def smallSigma : Char := Char.ofNat 0x3C3

/-- The small sigma at the end of a word. -/
def finalSigma : Char := Char.ofNat 0x3C2

/-- Lowercase of a text that stands after `before`, which is held last
character first. -/
def lowerFrom (before : List Char) : List Char → List Char
  | [] => []
  | c :: rest =>
    (if c = capitalSigma then
        [if meetsLetter before && !meetsLetter rest then finalSigma else smallSigma]
      else lowerChar c) ++ lowerFrom (c :: before) rest

/-- The full lowercase form of a text. -/
def lowercase (text : List Char) : List Char :=
  lowerFrom [] text

end Roster.Text
