import Mathlib.Data.List.Zip
import Roster.Proofs.Secrecy.Calls
import Roster.Proofs.Session

/-!
# Tokens do not leak

Two sessions that follow the same commands and differ in the random bytes only
show the same, except where a token is delivered.

* `Session.digests` — the digests of the tokens that a session issues, and
  `Session.literals` — the texts that it presents as tokens without having
  issued them. A text matches a token if it has its digest: nothing else is
  compared;
* `Session.Alike` — two sessions whose worlds are alike and whose issued tokens
  correspond; every command keeps it (`Session.Alike.step`), and so does a
  whole session (`Session.Alike.play`);
* `Session.play_hides_tokens` — all results, log lines and stores of the two
  sessions are equal, once digests, tokens and acceptance links are erased.
-/

namespace Roster

/-- What a command came to, without digests, tokens and links. -/
def Report.conceal (report : Report) : Report :=
  { report with result := report.result.map Answer.conceal }

namespace Session

/-! ## Issued and presented -/

/-- The digests of the tokens that a command issues. -/
def digestsOf (session : Session Tables) (command : Command) : List String :=
  (session.call? command).elim [] fun call => call.program.digests session.world

/-- The digests of the tokens that a session issues, in order. -/
def digests : List Command → Session Tables → List String
  | [], _ => []
  | command :: rest, session =>
    session.digestsOf command ++ digests rest (session.step [] command).2

/-- The texts that a command presents as tokens without their having been issued. -/
def literalsOf (session : Session Tables) : Command → List String
  | .act action => action.token?.toList.map (·.plain)
  | .acceptIssued invitation _ _ | .rejectIssued invitation _ =>
    if (session.issued.lookup invitation).isNone then [(session.tokenOf invitation).plain] else []
  | _ => []

/-- The texts that a session presents as tokens without their having been issued. -/
def literals : List Command → Session Tables → List String
  | [], _ => []
  | command :: rest, session =>
    session.literalsOf command ++ literals rest (session.step [] command).2

/-! ## Alike sessions -/

/-- The sessions are in alike worlds, under the same settings, and have issued
corresponding tokens for the same invitations. -/
structure Alike (K : String → String → Prop) (a b : Session Tables) : Prop where
  store : a.world.store.Alike K b.world.store
  clock : a.world.clock = b.world.clock
  config : a.config = b.config
  issued : List.Forall₂ (Answer.SameIssue K) a.issued b.issued

variable {K : String → String → Prop} {a b : Session Tables}

theorem start_alike (clock : Instant) (random random' : RandomSource) (config : Config) :
    (start Tables clock random config).Alike K (start Tables clock random' config) where
  store := ⟨rfl, .nil, Tables.empty_keyed, Tables.empty_keyed⟩
  clock := rfl
  config := rfl
  issued := .nil

/-- What was issued for an invitation corresponds. -/
theorem lookup_issued {l l' : List (Int × String)} (h : List.Forall₂ (Answer.SameIssue K) l l')
    (invitation : Int) :
    Option.Rel (fun x y => K (Token.hash x) (Token.hash y)) (l.lookup invitation)
      (l'.lookup invitation) := by
  induction h with
  | nil => exact .none
  | @cons x y rest rest' hxy _ ih =>
    rw [List.lookup_cons, List.lookup_cons, hxy.1]
    split
    · exact .some hxy.2
    · exact ih

/-- Tokens presented for the same invitation correspond. -/
theorem Alike.tokenOf (h : a.Alike K b) {invitation : Int}
    (hmissing : a.issued.lookup invitation = none →
      K (Token.hash (a.tokenOf invitation).plain) (Token.hash (a.tokenOf invitation).plain)) :
    K (Token.hash (a.tokenOf invitation).plain) (Token.hash (b.tokenOf invitation).plain) := by
  have hlookup := lookup_issued h.issued invitation
  unfold Session.tokenOf at hmissing ⊢
  cases ha : a.issued.lookup invitation with
  | none =>
    cases hb : b.issued.lookup invitation with
    | none => simpa [ha] using hmissing ha
    | some y =>
      rw [ha, hb] at hlookup
      cases hlookup
  | some x =>
    cases hb : b.issued.lookup invitation with
    | none =>
      rw [ha, hb] at hlookup
      cases hlookup
    | some y =>
      rw [ha, hb] at hlookup
      cases hlookup with
      | some hxy => exact hxy

/-- A command makes counterpart calls in alike sessions. -/
theorem Alike.call? (h : a.Alike K b) {command : Command}
    (hliterals : ∀ text ∈ a.literalsOf command, K (Token.hash text) (Token.hash text)) :
    Option.Rel (Call.Counterpart K) (a.call? command) (b.call? command) := by
  have hissued : ∀ invitation, (∀ text ∈ if (a.issued.lookup invitation).isNone = true then
        [(a.tokenOf invitation).plain] else [], K (Token.hash text) (Token.hash text)) →
      K (Token.hash (a.tokenOf invitation).plain) (Token.hash (b.tokenOf invitation).plain) := by
    intro invitation hpresented
    apply h.tokenOf
    intro hnone
    rw [hnone] at hpresented
    exact hpresented _ List.mem_cons_self
  unfold Session.call?
  cases command with
  | act action =>
    simp only [h.config]
    cases action with
    | acceptInvitation token user email =>
      exact .some (.accepts _ user email (hliterals _ List.mem_cons_self))
    | rejectInvitation token email =>
      exact .some (.rejects _ email (hliterals _ List.mem_cons_self))
    | _ => exact .some (.acts _ _ rfl)
  | acceptIssued invitation user email =>
    simp only [h.config]
    exact .some (.accepts _ user email (hissued invitation hliterals))
  | rejectIssued invitation email =>
    simp only [h.config]
    exact .some (.rejects _ email (hissued invitation hliterals))
  | membership call => exact .some (.membership call)
  | _ => exact .none

/-- What an answer issues is remembered first. -/
theorem remember_ok (session : Session Tables) (answer : Answer) :
    session.remember (.ok answer) =
      { session with issued := answer.issued?.toList ++ session.issued } := by
  cases answer <;> rfl

/-- Alike runs are reported alike, and leave alike sessions. -/
theorem Alike.finish (h : a.Alike K b) {x y : Run Tables Answer}
    (hrun : x.Alike K (Answer.Alike K) y) :
    (a.finish x).1.conceal = (b.finish y).1.conceal ∧
      (a.finish x).2.Alike K (b.finish y).2 := by
  obtain ⟨result, log, w⟩ := x
  obtain ⟨result', log', v⟩ := y
  obtain ⟨hresult, rfl, hstore, hclock⟩ := hrun
  cases hresult with
  | error e => exact ⟨rfl, hstore, hclock, h.config, h.issued⟩
  | @ok answer answer' hanswer =>
    simp only [Session.finish, remember_ok]
    refine ⟨?_, hstore, hclock, h.config, ?_⟩
    · exact congrArg (Report.mk · log []) (congrArg Except.ok hanswer.concealed)
    · have hissued := hanswer.issued
      generalize answer.issued? = issue, answer'.issued? = issue' at hissued
      cases hissued with
      | none => exact h.issued
      | some hsame => exact .cons hsame h.issued

/-- A user is added alike. -/
theorem insertUser_alike {s t : Tables} (h : s.Alike K t) (email name : String) :
    (s.insertUser email name).1 = (t.insertUser email name).1 ∧
      (s.insertUser email name).2.Alike K (t.insertUser email name).2 := by
  have hconcealed : ∀ u : Tables, (u.insertUser email name).1 = (u.conceal.insertUser email name).1 ∧
      (u.insertUser email name).2.conceal = (u.conceal.insertUser email name).2 :=
    fun _ => ⟨rfl, rfl⟩
  refine ⟨?_, ?_, h.digests, h.keyed.1.of_eq rfl rfl rfl rfl rfl,
    h.keyed.2.of_eq rfl rfl rfl rfl rfl⟩
  · rw [(hconcealed s).1, h.concealed, ← (hconcealed t).1]
  · rw [(hconcealed s).2, h.concealed, ← (hconcealed t).2]

/-- An ordinary command shows the same in alike sessions and leaves them alike. -/
theorem Alike.step (h : a.Alike K b) (hK : Relator.BiUnique K) {command : Command}
    (hordinary : command.isOrdinary = true)
    (hliterals : ∀ text ∈ a.literalsOf command, K (Token.hash text) (Token.hash text))
    (hdigests : Coupled K (a.digestsOf command) (b.digestsOf command)) :
    (a.step [] command).1.conceal = (b.step [] command).1.conceal ∧
      (a.step [] command).2.Alike K (b.step [] command).2 ∧
      (a.digestsOf command).length = (b.digestsOf command).length := by
  have hcalls := h.call? hliterals
  unfold digestsOf at hdigests ⊢
  cases ha : a.call? command with
  | some call =>
    cases hb : b.call? command with
    | none =>
      rw [ha, hb] at hcalls
      cases hcalls
    | some call' =>
      rw [ha, hb] at hcalls hdigests
      cases hcalls with
      | some hcounterpart =>
        obtain ⟨hrun, hlength⟩ := hcounterpart.alike hK _ _ h.store h.clock hdigests
        rw [step_call ha, step_call hb]
        exact ⟨(h.finish hrun).1, (h.finish hrun).2, hlength⟩
  | none =>
    cases command with
    | act | acceptIssued | rejectIssued | membership => cases ha
    | store | scope | atomically => cases hordinary
    | insertUser email name =>
      obtain ⟨huser, hstore⟩ := insertUser_alike h.store email name
      refine ⟨?_, ⟨hstore, h.clock, h.config, h.issued⟩, rfl⟩
      exact congrArg (fun user => Report.mk (.ok (.user user)) [] []) huser
    | findUser user =>
      have hfound := congrArg (Tables.findUser · user) h.store.concealed
      exact ⟨congrArg (fun found => Report.mk (.ok (.foundUser found)) [] []) hfound, h, rfl⟩
    | findUserByEmail email =>
      have hfound := congrArg (Tables.findUserByEmail · email) h.store.concealed
      exact ⟨congrArg (fun found => Report.mk (.ok (.foundUser found)) [] []) hfound, h, rfl⟩
    | setClock time => exact ⟨rfl, ⟨h.store, rfl, h.config, h.issued⟩, rfl⟩
    | advanceClock duration =>
      simp only [Session.step, h.clock]
      split
      · exact ⟨rfl, h, rfl⟩
      · exact ⟨rfl, ⟨h.store, rfl, h.config, h.issued⟩, rfl⟩
    | configure config => exact ⟨rfl, ⟨h.store, h.clock, rfl, h.issued⟩, rfl⟩
    | refuse e => exact ⟨rfl, h, rfl⟩

/-- Alike sessions that follow the same ordinary commands show the same and stay alike. -/
theorem Alike.play (hK : Relator.BiUnique K) {commands : List Command}
    (hordinary : ∀ command ∈ commands, command.isOrdinary = true) (h : a.Alike K b)
    (hliterals : ∀ text ∈ a.literals commands, K (Token.hash text) (Token.hash text))
    (hdigests : Coupled K (a.digests commands) (b.digests commands)) :
    (a.play commands).1.map Report.conceal = (b.play commands).1.map Report.conceal ∧
      (a.play commands).2.Alike K (b.play commands).2 := by
  induction commands generalizing a b with
  | nil => exact ⟨rfl, h⟩
  | cons command rest ih =>
    simp only [literals, List.forall_mem_append] at hliterals
    simp only [digests] at hdigests
    rw [List.forall_mem_cons] at hordinary
    obtain ⟨hreport, hnext, hlength⟩ := h.step hK hordinary.1 hliterals.1 hdigests.left
    obtain ⟨hreports, hlast⟩ := ih hordinary.2 hnext hliterals.2 (hdigests.right hlength)
    exact ⟨congrArg₂ List.cons hreport hreports, hlast⟩

/-! ## Two random sources -/

/-- Two digests correspond: they were issued in the same turn, or they are one digest that
was never issued. -/
def Corresponds (issued issued' : List String) (d d' : String) : Prop :=
  (d, d') ∈ issued.zip issued' ∨ d = d' ∧ d ∉ issued ∧ d ∉ issued'

/-- An entry that stands once in the first list has one partner. -/
theorem zip_right_unique {α β : Type} {l : List α} {l' : List β} (h : l.Nodup) {x : α} {y y' : β}
    (hy : (x, y) ∈ l.zip l') (hy' : (x, y') ∈ l.zip l') : y = y' := by
  induction l generalizing l' with
  | nil => cases hy
  | cons head rest ih =>
    cases l' with
    | nil => cases hy
    | cons head' rest' =>
      rw [List.nodup_cons] at h
      rw [List.zip_cons_cons, List.mem_cons, Prod.mk.injEq] at hy hy'
      rcases hy with ⟨rfl, rfl⟩ | hy
      · rcases hy' with ⟨-, rfl⟩ | hy'
        · rfl
        · exact absurd (List.of_mem_zip hy').1 h.1
      · rcases hy' with ⟨rfl, -⟩ | hy'
        · exact absurd (List.of_mem_zip hy).1 h.1
        · exact ih h.2 hy hy'

theorem mem_zip_swap {α β : Type} {l : List α} {l' : List β} {x : α} {y : β}
    (h : (x, y) ∈ l.zip l') : (y, x) ∈ l'.zip l := by
  rw [← List.zip_swap l l']
  exact List.mem_map_of_mem h

/-- If no digest is issued twice in either run, the digests correspond one to one. -/
theorem corresponds_biUnique {issued issued' : List String} (h : issued.Nodup)
    (h' : issued'.Nodup) : Relator.BiUnique (Corresponds issued issued') := by
  constructor
  · rintro d e d' (hd | ⟨rfl, hd, hd'⟩) (he | ⟨rfl, he, he'⟩)
    · exact zip_right_unique h' (mem_zip_swap hd) (mem_zip_swap he)
    · exact absurd (List.of_mem_zip hd).2 he'
    · exact absurd (List.of_mem_zip he).2 hd'
    · rfl
  · rintro d d' e' (hd | ⟨rfl, hd, hd'⟩) (he | ⟨rfl, he, he'⟩)
    · exact zip_right_unique h hd he
    · exact absurd (List.of_mem_zip hd).1 he
    · exact absurd (List.of_mem_zip he).1 hd
    · rfl

/-- Two runs of the same commands from the start, with the same clock and settings, differ
in their random bytes only. In each, the tokens that are issued have distinct digests, and
what is presented as a token without having been issued matches none that is issued in
either run. Then all results, errors and log lines are the same, and so are the final
stores, once digests, tokens and acceptance links are erased. -/
theorem play_hides_tokens (clock : Instant) (config : Config) (random random' : RandomSource)
    (commands : List Command) (hordinary : ∀ command ∈ commands, command.isOrdinary = true)
    (hfirst : ((start Tables clock random config).digests commands).Nodup)
    (hsecond : ((start Tables clock random' config).digests commands).Nodup)
    (hliterals : ∀ text ∈ (start Tables clock random config).literals commands,
      Token.hash text ∉ (start Tables clock random config).digests commands ∧
      Token.hash text ∉ (start Tables clock random' config).digests commands) :
    let first := (start Tables clock random config).play commands
    let second := (start Tables clock random' config).play commands
    first.1.map Report.conceal = second.1.map Report.conceal ∧
      first.2.world.store.conceal = second.2.world.store.conceal := by
  have hplay := Alike.play (corresponds_biUnique hfirst hsecond) hordinary
    (start_alike clock random random' config) (fun text htext => .inr ⟨rfl, hliterals text htext⟩)
    (fun pair hpair => .inl hpair)
  exact ⟨hplay.1, hplay.2.store.concealed⟩

/-- Two invitations are sent and one is declined by its token; a token is asked for that was
not issued, and a text is tried that is none. -/
def probing : List Command :=
  [.insertUser "ada@example.org" "Ada",
    .act (.createTeam
      { ownerId := 1
        name := "Compilers"
        description := none
        visibility := .everyone
        memberLimit := none }),
    .act (.sendInvitation 1 1 "bob@example.org" .member),
    .act (.sendInvitation 1 1 "cleo@example.org" .admin),
    .rejectIssued 1 "bob@example.org",
    .acceptIssued 3 2 "cleo@example.org",
    .act (.rejectInvitation ⟨"guess"⟩ "cleo@example.org")]

/-- The fills of the sequence source, from the hundredth on. -/
def laterSequence : RandomSource := ⟨RandomSource.sequenceFill, 100⟩

/-- The tokens differ, and nothing else does. -/
theorem probing_hides_tokens :
    let first := (start Tables .epoch .sequence .default).play probing
    let second := (start Tables .epoch laterSequence .default).play probing
    first.2.issued ≠ second.2.issued ∧
      first.1.map Report.conceal = second.1.map Report.conceal ∧
      first.2.world.store.conceal = second.2.world.store.conceal := by
  have hsources : ((start Tables .epoch .sequence .default).digests probing).Nodup ∧
      ((start Tables .epoch laterSequence .default).digests probing).Nodup ∧
      (∀ text ∈ (start Tables .epoch .sequence .default).literals probing,
        Token.hash text ∉ (start Tables .epoch .sequence .default).digests probing ∧
        Token.hash text ∉ (start Tables .epoch laterSequence .default).digests probing) ∧
      ((start Tables .epoch .sequence .default).play probing).2.issued ≠
        ((start Tables .epoch laterSequence .default).play probing).2.issued := by
    decide +kernel
  obtain ⟨hfirst, hsecond, hliterals, hissued⟩ := hsources
  exact ⟨hissued, play_hides_tokens .epoch .default .sequence laterSequence probing (by decide)
    hfirst hsecond hliterals⟩

end Session

end Roster
