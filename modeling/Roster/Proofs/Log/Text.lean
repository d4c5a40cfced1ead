import Mathlib.Data.Char
import Roster.Log
import Roster.Proofs.Slug

/-!
# The text of log lines

A line weaves values into the fixed pieces of its format. If the values are plain it cannot be
taken for anything else: it is one line, and every double quote in it stands in a fixed piece.

* `LogLine.frame`, `LogLine.values` — the pieces and the values, and `LogLine.text_eq` that the text
  weaves them;
* `LogLine.Unforged` — a line that is what it seems, and `LogLine.unforged` that it is if its values
  are plain;
* `LogLine.plain_int`, `LogLine.plain_slugify` and others — the values that are.
-/

namespace Roster.LogLine

/-- The characters that need no care in a line: those of printed ASCII without the double quote. -/
def isPlain (c : Char) : Bool :=
  ' ' ≤ c && c ≤ '~' && c ≠ '"'

/-- The characters that break a text into lines. -/
def isLineBreak (c : Char) : Bool :=
  ['\n', '\u000b', '\u000c', '\r', '\u0085', '\u2028', '\u2029'].contains c

/-- Texts that can be put between double quotes as they are. -/
def Plain (text : String) : Prop :=
  ∀ c ∈ text.toList, isPlain c = true

/-- The fixed pieces of a line. -/
def frame : LogLine → List String
  | .teamCreated .. => ["msg=\"team created\", team_id=", ", owner_id=", ", slug=\"", "\""]
  | .teamUpdated .. => ["msg=\"team updated\", team_id=", ", requester_id="]
  | .teamDeleted .. => ["msg=\"team deleted\", team_id=", ", cancelled_invitations="]
  | .roleUpdated .. =>
    ["msg=\"member role updated\", team_id=", ", user_id=", ", role=\"", "\", requester_id="]
  | .memberRemoved .. => ["msg=\"member removed\", team_id=", ", user_id=", ", requester_id="]
  | .memberLeft .. => ["msg=\"member left\", team_id=", ", user_id="]
  | .invitationSent .. =>
    ["msg=\"invitation sent\", team_id=", ", invitation_id=", ", role=\"", "\", invited_by="]
  | .invitationAccepted .. =>
    ["msg=\"invitation accepted\", team_id=", ", user_id=", ", role=\"", "\""]
  | .invitationRejected .. => ["msg=\"invitation rejected\", team_id=", ", invitation_id="]
  | .invitationRevoked .. =>
    ["msg=\"invitation revoked\", team_id=", ", invitation_id=", ", requester_id="]
  | .invitationsExpired .. => ["msg=\"stale invitations expired\", count="]
  | .expiryNotWritten .. =>
    ["msg=\"failed to mark invitation expired\", invitation_id=", ", error=\"", "\""]
  | .statementFailed .. => ["msg=\"database error\", operation=\"", "\", error=\"", "\""]

/-- What stands after each of them. -/
def values : LogLine → List String
  | .teamCreated team owner slug => [toString team, toString owner, slug]
  | .teamUpdated team requester => [toString team, toString requester]
  | .teamDeleted team cancelled => [toString team, toString cancelled]
  | .roleUpdated team user role requester =>
    [toString team, toString user, role.name, toString requester]
  | .memberRemoved team user requester => [toString team, toString user, toString requester]
  | .memberLeft team user => [toString team, toString user]
  | .invitationSent team invitation role invitedBy =>
    [toString team, toString invitation, role.name, toString invitedBy]
  | .invitationAccepted team user role => [toString team, toString user, role.name]
  | .invitationRejected team invitation => [toString team, toString invitation]
  | .invitationRevoked team invitation requester =>
    [toString team, toString invitation, toString requester]
  | .invitationsExpired count => [toString count]
  | .expiryNotWritten invitation error => [toString invitation, error.message]
  | .statementFailed operation error => [operation, error]

/-- Pieces and values in turn. -/
def weave : List String → List String → List String
  | [], values => values
  | piece :: frame, [] => piece :: frame
  | piece :: frame, value :: values => piece :: value :: weave frame values

theorem weave_perm (frame values : List String) : (weave frame values).Perm (frame ++ values) := by
  induction frame generalizing values with
  | nil => exact .refl _
  | cons piece frame ih =>
    cases values with
    | nil => rw [List.append_nil, weave]
    | cons value values =>
      rw [weave, List.cons_append]
      exact ((ih values).cons value |>.trans List.perm_middle.symm).cons piece

/-- The text of a line weaves its values into its frame. -/
theorem text_eq (line : LogLine) : line.text = String.join (weave line.frame line.values) := by
  delta text
  cases line <;>
  · simp only [frame, values, weave, String.join, List.foldl_cons, List.foldl_nil,
      String.empty_append, String.append_assoc]
    rfl

/-- What makes a line what it seems: plain values between the fixed pieces, no double quote but
those of the pieces, and no end of the line before its end. -/
structure Unforged (line : LogLine) : Prop where
  woven : line.written =
    line.level.name ++ " " ++ String.join (weave line.frame line.values)
  plain : ∀ value ∈ line.values, Plain value
  quotes : line.written.toList.count '"' = (String.join line.frame).toList.count '"'
  unbroken : ∀ c ∈ line.written.toList, isLineBreak c = false

/-! ## Plain values -/

theorem isPlain_between (first last : Char) {c : Char} (hfirst : '"' < first) (hlast : last ≤ '~')
    (h : first ≤ c ∧ c ≤ last) : isPlain c = true := by
  have hblank : ' ' ≤ '"' := by decide
  have hge : ' ' ≤ c := le_trans hblank (le_trans (le_of_lt hfirst) h.1)
  have hne : c ≠ '"' := by
    rintro rfl
    exact not_le_of_gt hfirst h.1
  simp [isPlain, hge, le_trans h.2 hlast, hne]

theorem plain_append {first second : String} (h : Plain first) (h' : Plain second) :
    Plain (first ++ second) := by
  intro c hc
  rw [String.toList_append, List.mem_append] at hc
  exact hc.elim (h c) (h' c)

@[simp]
theorem plain_nat (n : Nat) : Plain n.repr := by
  intro c hc
  rw [Nat.toList_repr] at hc
  have hdigit := Nat.isDigit_of_mem_toDigits (by decide) (by decide) hc
  rw [Char.isDigit, Bool.and_eq_true, decide_eq_true_eq, decide_eq_true_eq] at hdigit
  exact isPlain_between '0' '9' (by decide) (by decide) hdigit

@[simp]
theorem plain_int (n : Int) : Plain n.repr := by
  cases n with
  | ofNat n => exact plain_nat n
  | negSucc n =>
    have hminus : Plain "-" := by
      intro c hc
      obtain rfl : c = '-' := by simpa using hc
      decide
    exact plain_append hminus (plain_nat (n + 1))

@[simp]
theorem plain_role (role : Role) : Plain role.name := by
  unfold Plain
  rw [← List.all_eq_true]
  cases role <;> decide

/-- Whatever the name of a team, its slug is plain. -/
@[simp]
theorem plain_slugify (name : String) : Plain (slugify name) := by
  intro c hc
  rw [slugify, String.toList_ofList] at hc
  rcases (Slug.derive_tidy name.toList).chars c hc with hword | rfl
  · rw [Slug.isWordChar, Bool.or_eq_true, Bool.and_eq_true, Bool.and_eq_true, decide_eq_true_eq,
      decide_eq_true_eq, decide_eq_true_eq, decide_eq_true_eq] at hword
    rcases hword with hletter | hdigit
    · exact isPlain_between 'a' 'z' (by decide) (by decide) hletter
    · exact isPlain_between '0' '9' (by decide) (by decide) hdigit
  · decide

/-! ## Lines with plain values -/

theorem isLineBreak_plain {c : Char} (h : isPlain c = true) : isLineBreak c = false := by
  by_contra hbreak
  rw [Bool.not_eq_false, isLineBreak, List.contains_iff_mem] at hbreak
  have hnone : ['\n', '\u000b', '\u000c', '\r', '\u0085', '\u2028', '\u2029'].all
      (!isPlain ·) = true := by decide
  have hplain := List.all_eq_true.mp hnone c hbreak
  rw [h] at hplain
  cases hplain

/-- The characters of the fixed pieces are plain or double quotes. -/
theorem frame_chars (line : LogLine) :
    line.frame.all (·.toList.all fun c => isPlain c || c == '"') = true := by
  delta frame
  cases line <;>
  · dsimp only
    decide

theorem count_quote_plain {text : String} (h : Plain text) : text.toList.count '"' = 0 := by
  rw [List.count_eq_zero]
  intro hquote
  exact absurd (h '"' hquote) (by decide)

/-- A line with plain values is what it seems. -/
theorem unforged {line : LogLine} (h : ∀ value ∈ line.values, Plain value) : line.Unforged := by
  have hwoven : line.written =
      line.level.name ++ " " ++ String.join (weave line.frame line.values) := by
    rw [written, text_eq]
  have hperm : (weave line.frame line.values).Perm (line.frame ++ line.values) :=
    weave_perm line.frame line.values
  have hlevel : ∀ c ∈ (line.level.name ++ " ").toList, isPlain c = true := by
    rw [← List.all_eq_true]
    cases line.level <;> decide
  refine ⟨hwoven, h, ?_, ?_⟩
  · have hvalues : (line.values.flatMap String.toList).count '"' = 0 := by
      rw [List.count_eq_zero]
      intro hquote
      obtain ⟨value, hvalue, hc⟩ := List.mem_flatMap.mp hquote
      exact absurd (h value hvalue '"' hc) (by decide)
    rw [hwoven, String.toList_append, List.count_append, String.toList_join, String.toList_join,
      (hperm.flatMap_right String.toList).count_eq, List.flatMap_append, List.count_append, hvalues,
      count_quote_plain hlevel, Nat.zero_add, Nat.add_zero]
  · intro c hc
    rw [hwoven, String.toList_append, List.mem_append, String.toList_join, List.mem_flatMap] at hc
    rcases hc with hc | ⟨part, hpart, hc⟩
    · exact isLineBreak_plain (hlevel c hc)
    · rcases List.mem_append.mp (hperm.mem_iff.mp hpart) with hpiece | hvalue
      · have hchar := List.all_eq_true.mp (List.all_eq_true.mp (frame_chars line) part hpiece) c hc
        rcases Bool.or_eq_true_iff.mp hchar with hplain | hquote
        · exact isLineBreak_plain hplain
        · rw [beq_iff_eq.mp hquote]
          decide
      · exact isLineBreak_plain (h part hvalue c hc)

end Roster.LogLine
