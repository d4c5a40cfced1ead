import Roster.Proofs.Checks
import Roster.Proofs.History
import Roster.Proofs.LostUpdate
import Roster.Proofs.Text.Lowercase

/-!
# Who an invitation is for

Addresses are stored and listed in lowercase, but the addressee is recognised by folding the
case of ASCII letters only. The Kelvin sign is the one character outside ASCII that has an
ASCII letter as its lowercase form, and it is all that the two disagree on.

* `Email.lowerFrom_eq_fold`, `Email.lowerFrom_of_fold` — along a text without a Kelvin sign,
  lowercase gives an address exactly if folding gives the same one;
* `Invitation.isFor_iff` — who an invitation to a checked address is for;
* `Pool.sent_stored` — what a successful sending of some thread stored, normalized, at some
  moment of the run;
* `World.TurnsAwayIff` — when accepting and rejecting turn a caller away, from
  `accept_notAddressee_iff` and `reject_notAddressee_iff`;
* `Pool.addressee_recognised` — all of it, for every invitation that was sent and every address;
* `Pool.kelvin_turned_away` — a run in which the address that was invited is turned away.
-/

namespace Roster

/-! ## Lowercase and case folding -/

namespace Text

/-- The sign for the unit of temperature, which is a letter with a lowercase form. -/
def kelvinSign : Char := Char.ofNat 0x212A

/-- No other lowercase partner of a character outside ASCII is in ASCII. -/
theorem lowerRanges_apart : ∀ range ∈ lowerRanges, range.last < 128 ∨
    128 ≤ (range.first : Int) + range.distance ∨ (range.first = 0x212A ∧ range.last = 0x212A) := by
  decide +kernel

/-- Outside ASCII, lowercase stays there. -/
theorem lowerCode_ge {code : Nat} (hcode : 128 ≤ code) (hkelvin : code ≠ 0x212A) :
    128 ≤ lowerCode code := by
  rcases lowerCode_cases code with hself | ⟨range, hrange, hcovers, hpartner⟩
  · exact hself.symm ▸ hcode
  · obtain ⟨hfirst, hlast, -⟩ := CaseRange.covers_iff.mp hcovers
    rw [hpartner]
    rcases lowerRanges_apart range hrange with h | h | h <;> omega

/-- Trimming takes no characters but blanks. -/
theorem mem_trim {c : Char} (hc : isBlank c = false) (text : List Char) :
    c ∈ trim text ↔ c ∈ text := by
  have hdrop : ∀ l : List Char, c ∈ l.dropWhile isBlank ↔ c ∈ l := by
    intro l
    induction l with
    | nil => rfl
    | cons head rest ih =>
      by_cases hhead : isBlank head = true
      · have hne : c ≠ head := by
          rintro rfl
          rw [hc] at hhead
          cases hhead
        rw [List.dropWhile_cons_of_pos hhead, ih, List.mem_cons, or_iff_right hne]
      · rw [List.dropWhile_cons_of_neg hhead]
  rw [trim, dropEndWhile, List.mem_reverse, hdrop, List.mem_reverse, hdrop]

end Text

namespace Email

open Text

/-- Outside ASCII, folding changes nothing. -/
theorem toLower_apart {c : Char} (hc : 128 ≤ c.toNat) : c.toLower = c := by
  have hval : 128 ≤ c.val.toNat := hc
  unfold Char.toLower
  rw [dif_neg]
  rintro ⟨-, hle⟩
  have htop : c.val.toNat ≤ 90 := UInt32.le_iff_toNat_le.mp hle
  omega

/-- No address has a character whose code is outside ASCII. -/
theorem ofNat_apart {n : Nat} (hn : 128 ≤ n) : isAddressChar (Char.ofNat n) = false := by
  rw [Bool.eq_false_iff]
  intro hchar
  have hlt := isAddressChar_toNat hchar
  by_cases hvalid : n.isValidChar
  · rw [Char.ofNat, dif_pos hvalid] at hlt
    exact absurd hlt (Nat.not_lt.mpr hn)
  · rw [Char.ofNat, dif_neg hvalid] at hchar
    exact absurd hchar (by decide)

/-- Outside ASCII, only the Kelvin sign has a lowercase form that may stand in an address. -/
theorem lowerChar_apart {c : Char} (hc : 128 ≤ c.toNat) (hkelvin : c ≠ kelvinSign) :
    ∃ d ∈ lowerChar c, isAddressChar d = false := by
  unfold lowerChar
  split
  · exact ⟨Char.ofNat 0x307, by simp, by decide⟩
  · have hcode : c.toNat ≠ 0x212A := by
      intro hcode
      exact hkelvin (by rw [kelvinSign, ← hcode, Char.ofNat_toNat])
    exact ⟨_, List.mem_singleton_self _, ofNat_apart (lowerCode_ge hc hcode)⟩

/-- If lowercase gives an address and no Kelvin sign stands in the text, folding gives the same
one. -/
theorem lowerFrom_eq_fold {text : List Char} (hkelvin : kelvinSign ∉ text) {before : List Char}
    (haddress : ∀ c ∈ lowerFrom before text, isAddressChar c = true) :
    lowerFrom before text = text.map Char.toLower := by
  induction text generalizing before with
  | nil => rfl
  | cons c rest ih =>
    rw [List.mem_cons, not_or] at hkelvin
    rw [lowerFrom, List.forall_mem_append] at haddress
    obtain ⟨hhead, hrest⟩ := haddress
    rw [lowerFrom, ih hkelvin.2 hrest, List.map_cons]
    rcases Nat.lt_or_ge c.toNat 128 with hascii | hapart
    · obtain ⟨hsigma, hlower⟩ := lowerChar_ascii hascii
      rw [if_neg hsigma, hlower, List.singleton_append]
    · -- the first character would not become one of an address
      exfalso
      split at hhead
      · split at hhead <;> exact absurd (hhead _ (List.mem_singleton_self _)) (by decide)
      · obtain ⟨d, hd, hnot⟩ := lowerChar_apart hapart (Ne.symm hkelvin.1)
        rw [hhead d hd] at hnot
        cases hnot

/-- If folding gives an address, no Kelvin sign stands in the text and lowercase gives the same
one. -/
theorem lowerFrom_of_fold {text : List Char}
    (haddress : ∀ c ∈ text, isAddressChar c.toLower = true) (before : List Char) :
    kelvinSign ∉ text ∧ lowerFrom before text = text.map Char.toLower := by
  have hascii : ∀ c ∈ text, c.toNat < 128 := by
    intro c hc
    by_contra hapart
    have hfolded := haddress c hc
    rw [toLower_apart (Nat.not_lt.mp hapart)] at hfolded
    exact hapart (isAddressChar_toNat hfolded)
  constructor
  · intro hkelvin
    exact absurd (hascii _ hkelvin) (by decide)
  · exact lowerFrom_ascii hascii before

end Email

/-- An invitation to a checked address is for whoever gives a text that has the address as its
normal form, unless a Kelvin sign stands in it. -/
theorem Invitation.isFor_iff {i : Invitation} (haddress : Email.validate i.email = .ok ())
    (email : String) :
    i.isFor email = true ↔
      Email.normalize email = i.email ∧ Text.kelvinSign ∉ email.toList := by
  have hfold : i.isFor email = true ↔
      i.email.toList = (Text.trim email.toList).map Char.toLower := by
    rw [isFor, Email.sameIgnoringCase, beq_iff_eq,
      Email.map_toLower_eq fun c hc => Email.validate_chars haddress hc]
  have hnormal : Email.normalize email = i.email ↔
      Text.lowerFrom [] (Text.trim email.toList) = i.email.toList := by
    rw [← String.toList_inj, Email.normalize, String.toList_ofList, Text.lowercase]
  rw [hfold, hnormal, ← Text.mem_trim (by decide : Text.isBlank Text.kelvinSign = false)]
  constructor
  · intro heq
    have hchars : ∀ c ∈ Text.trim email.toList, Email.isAddressChar c.toLower = true := by
      intro c hc
      refine Email.validate_chars haddress ?_
      rw [heq]
      exact List.mem_map_of_mem hc
    obtain ⟨hkelvin, hlower⟩ := Email.lowerFrom_of_fold hchars []
    exact ⟨hlower.trans heq.symm, hkelvin⟩
  · rintro ⟨heq, hkelvin⟩
    rw [← heq]
    refine Email.lowerFrom_eq_fold hkelvin ?_
    intro c hc
    rw [heq] at hc
    exact Email.validate_chars haddress hc

/-! ## Invitations that were sent -/

/-- The invitation that was sent is stored, whatever became of it, with the digest of the token
and for the address that was typed in its normal form, which was checked. -/
structure SentInvitation.StoredIn (sent : SentInvitation) (email : String) (s : Tables) : Prop where
  row : ∃ i ∈ s.invitations, i.offer = sent.invitation.offer
  token : sent.invitation.tokenHash = Token.hash sent.token.plain
  email : sent.invitation.email = Email.normalize email
  checked : Email.validate sent.invitation.email = .ok ()

/-- What a call sends is in the tables that its deed leaves. -/
theorem Call.Deed.sent_stored {rely : Rely} {config : Config} {team inviter : Int} {email : String}
    {role : Role} {w : World Tables} {s : Tables} {sent : SentInvitation}
    (h : (Call.act config (.sendInvitation team inviter email role)).Deed rely w s
      (.ok (.sent sent))) : sent.StoredIn email s := by
  cases h with
  | sends h htoken =>
    have hwell := h.wellFormed
    obtain ⟨-, -, hrow, hs⟩ := Tables.createInvitation_ok h.written
    exact
      { row := by
          rw [hs]
          exact ⟨_, List.mem_append_right _ List.mem_cons_self, rfl⟩
        token := by rw [hrow, htoken]; rfl
        email := by rw [hrow]; rfl
        checked := hwell.address }

/-- It stays there as tables evolve. -/
theorem SentInvitation.StoredIn.evolves {sent : SentInvitation} {email : String} {s s' : Tables}
    (h : sent.StoredIn email s) (hevolves : s.Evolves s') : sent.StoredIn email s' where
  row := by
    obtain ⟨i, hi, hoffer⟩ := h.row
    obtain ⟨i', hi', hoffer', -⟩ := hevolves.invitations i hi
    exact ⟨i', hi', hoffer'.trans hoffer⟩
  token := h.token
  email := h.email
  checked := h.checked

namespace Pool

/-- A call that succeeded, and does more than reading, did its deed in the step with which it
returned. -/
theorem deed_of_success {rely : Rely} {pool : Pool} (hgoverns : rely.Governs)
    (hfits : pool.Fits rely) {call : Call} (hwrites : call.onlyReads = false) (events : List Event)
    {thread : Thread} {answer : Answer} :
    let began := pool.step (.begins call)
    (began.run events).threads[pool.threads.length]? = some thread →
    thread.result? = some (.ok answer) →
    ∃ first last, events = first ++ .proceeds pool.threads.length :: last ∧
      call.Deed (rely.along began first) (began.run first).world
        ((began.run first).step (.proceeds pool.threads.length)).world.store (.ok answer) := by
  intro began hthread hok
  have hquiet : ¬ call.Quiet (.ok answer) := by
    intro hquiet
    rw [hquiet.onlyReads_of_ok] at hwrites
    cases hwrites
  have hbegun : began.threads[pool.threads.length]? = some ⟨call, call.program⟩ :=
    List.getElem?_concat_length
  have hreturn : (began.run events).result? pool.threads.length = some (.ok answer) :=
    Option.bind_eq_some_iff.mpr ⟨thread, hthread, hok⟩
  cases hnone : began.result? pool.threads.length with
  | some result =>
    -- what a call comes to before its first step is a failure
    obtain rfl := Option.some.inj ((result?_run hnone events).symm.trans hreturn)
    rw [result?, hbegun] at hnone
    exact absurd ((call.abides hfits.inv).quiet_of_outcome hfits.inv hnone) hquiet
  | none =>
    obtain ⟨first, last, rfl, hpending, hreturns⟩ := returns_at hbegun hnone hreturn
    obtain ⟨before, hbefore, -⟩ := fits_along hgoverns hfits call first
    obtain ⟨after, hafter, hresult⟩ := Option.bind_eq_some_iff.mp hreturns
    rw [result?, hbefore] at hpending
    refine ⟨first, last, rfl, ?_⟩
    rcases returned_along hgoverns hfits call first hbefore hpending hafter hresult with
      ⟨-, h⟩ | hdeed
    · exact absurd h hquiet
    · exact hdeed

/-- What a call sent is in the tables from its return on. -/
theorem sent_stored (clock : Instant) (random : RandomSource) (history : List Event) {n : Nat}
    {thread : Thread} {config : Config} {team inviter : Int} {email : String} {role : Role}
    {sent : SentInvitation}
    (hthread : ((start clock random).run history).threads[n]? = some thread)
    (hcall : thread.call = .act config (.sendInvitation team inviter email role))
    (hsent : thread.result? = some (.ok (.sent sent))) :
    sent.StoredIn email ((start clock random).run history).world.store := by
  obtain ⟨early, mid, rfl, rfl⟩ := begun rfl history hthread
  have hfits := start_fits clock random early
  rw [hcall, run_append, run_cons] at hthread ⊢
  obtain ⟨first, last, rfl, hdeed⟩ :=
    deed_of_success Rely.keyed_governs hfits rfl mid hthread hsent
  -- from the deed on, tables evolve
  have hbegan := (course_step Rely.keyed_governs hfits (.begins (.act config
    (.sendInvitation team inviter email role)))).2.1
  have hreturned := (course_step Rely.keyed_governs
    (fits_run Rely.keyed_governs hbegan first).1
    (.proceeds ((start clock random).run early).threads.length)).2.1
  rw [run_append, run_cons]
  exact hdeed.sent_stored.evolves (fits_run Rely.keyed_governs hreturned last).2

end Pool

/-! ## Answers to them -/

/-- Both answers to the invitation of a token, given with a text for an address, are refused as
somebody else's exactly if the cause is there. -/
structure World.TurnsAwayIff (w : World Tables) (token : Secret) (email : String) (cause : Prop) :
    Prop where
  accepting : ∀ user, ((acceptInvitation token user email).run w).result =
    .error (.error .notAddressee) ↔ cause
  rejecting : ((rejectInvitation token email).run w).result =
    .error (.error .notAddressee) ↔ cause

/-- The listing for a text shows the invitation of an id on some page. -/
def World.Shows (w : World Tables) (email : String) (id : Int) : Prop :=
  ∃ status page views, ((listMyInvitations email status page).run w).result = .ok views ∧
    ∃ view ∈ views, view.invitation.id = id

theorem World.TurnsAwayIff.congr {w : World Tables} {token : Secret} {email : String}
    {cause cause' : Prop} (h : w.TurnsAwayIff token email cause) (hiff : cause ↔ cause') :
    w.TurnsAwayIff token email cause' :=
  ⟨fun user => (h.accepting user).trans hiff, h.rejecting.trans hiff⟩

/-- The failure of the first obstacle is that of one that stands. -/
theorem Obstacle.mem_of_first {obstacles : List Obstacle} {failure : TeamError}
    (h : first obstacles = some failure) :
    ∃ o ∈ obstacles, o.stands = true ∧ o.failure = failure := by
  obtain ⟨o, hfound, rfl⟩ := Option.map_eq_some_iff.mp h
  exact ⟨o, List.mem_of_find?_eq_some hfound, List.find?_some hfound, rfl⟩

section

variable {w : World Tables} {token : Secret} {email : String} {invitation : Invitation}

/-- An acceptance is refused as somebody else's exactly if the invitation is not for the text. -/
theorem accept_notAddressee_iff (hk : w.store.Keyed) (hroles : w.store.NoOwnersInvited)
    (hfound : w.store.findInvitationByToken (Token.hash token.plain) = some invitation)
    (user : Int) (email : String) :
    ((acceptInvitation token user email).run w).result = .error (.error .notAddressee) ↔
      invitation.isFor email = false := by
  have hverdict : invitation.Verdict w user email ((acceptInvitation token user email).run w) :=
    acceptInvitation_verdict hk hroles hfound
  unfold Invitation.Verdict at hverdict
  cases hfirst : Obstacle.first (invitation.obstacles w.store w.clock user email) with
  | some failure =>
    rw [hfirst] at hverdict
    rw [hverdict.1, Except.error.injEq, Failure.error.injEq]
    rw [Invitation.obstacles, Obstacle.first_cons] at hfirst
    cases hfor : invitation.isFor email with
    | false => simpa [hfor, eq_comm] using hfirst
    | true =>
      -- the other obstacles end in other failures
      simp only [hfor, Bool.not_true, Bool.false_eq_true, if_false] at hfirst
      simp only [reduceCtorEq, iff_false]
      rintro rfl
      obtain ⟨o, ho, -, hfailure⟩ := Obstacle.mem_of_first hfirst
      rw [List.mem_cons, List.mem_cons] at ho
      rcases ho with rfl | rfl | ho
      · cases hfailure
      · cases hfailure
      · unfold Invitation.teamObstacles at ho
        split at ho
        · cases List.mem_singleton.mp ho
          cases hfailure
        · simp only [List.mem_cons, List.not_mem_nil, or_false] at ho
          rcases ho with rfl | rfl | rfl <;> cases hfailure
  | none =>
    rw [hfirst] at hverdict
    rw [hverdict.1]
    simp only [Invitation.obstacles, Obstacle.first_cons_eq_none, Bool.not_eq_false'] at hfirst
    simp [hfirst.1]

/-- The store does not know whom an invitation is for. -/
theorem Tables.settleInvitation_ne_notAddressee {s : Tables} {id : Int} {status : InvitationStatus}
    {now : Instant} : s.settleInvitation id status now ≠ .error .notAddressee := by
  unfold settleInvitation
  repeat' split
  all_goals exact fun h => nomatch h

/-- So is a rejection. -/
theorem reject_notAddressee_iff
    (hfound : w.store.findInvitationByToken (Token.hash token.plain) = some invitation)
    (email : String) :
    ((rejectInvitation token email).run w).result = .error (.error .notAddressee) ↔
      invitation.isFor email = false := by
  have hresolve : (resolveToken token email).run w.clock w.store = _ := run_resolveToken hfound
  unfold rejectInvitation
  simp only [Program.run_bind, Program.liftM_work, Program.run_reading hresolve]
  cases hfor : invitation.isFor email with
  | false => exact ⟨fun _ => rfl, fun _ => rfl⟩
  | true =>
    simp only [if_true, reduceCtorEq, iff_false]
    cases invitation.isPending with
    | false => simp [Failure.ofResult]
    | true =>
      simp only [Failure.ofResult, if_true, Run.andThen_ok, Program.run_bind, Program.run_ofWork,
        Work.run_now, World.adopt, Work.run_perform, Tables.perform_eq, Tables.perform]
      cases hsettle : w.store.settleInvitation invitation.id .rejected w.clock with
      | error e =>
        have hother : e ≠ .notAddressee := by
          rintro rfl
          exact Tables.settleInvitation_ne_notAddressee hsettle
        simpa using hother
      | ok settled =>
        obtain ⟨settled, s⟩ := settled
        cases settled <;>
          simp [Work.found, Program.run_bind, Failure.ofResult, World.adopt, -bind_pure_comp]

/-- What a listing shows is for the normal form of the text. -/
theorem email_of_shows (hk : w.store.Keyed) {i : Invitation} (hi : i ∈ w.store.invitations)
    (hshows : w.Shows email i.id) : i.email = Email.normalize email := by
  obtain ⟨status, page, views, hviews, view, hview, hid⟩ := hshows
  have hrun : ((listMyInvitations email status page).run w).result =
      .ok ((w.store.listInvitations (fun i => i.email = Email.normalize email) status page).map
        fun invitation => .of invitation w.clock) := by
    unfold listMyInvitations
    simp only [Program.run_bind, Program.liftM_work, Program.run_ofWork, Work.run_now,
      Work.run_perform, Tables.perform_eq, Tables.perform, Tables.reading, World.adopt,
      Failure.ofResult, Run.andThen_ok]
    rfl
  cases Except.ok.inj (hrun.symm.trans hviews)
  obtain ⟨shown, hshown, rfl⟩ := List.mem_map.mp hview
  have hmem := List.mem_of_mem_drop (List.mem_of_mem_take hshown)
  obtain ⟨hstored, hmatches⟩ := List.mem_filter.mp (List.mem_mergeSort.mp hmem)
  rw [Bool.and_eq_true, decide_eq_true_eq] at hmatches
  rw [← hk.invitation_eq hstored hi hid]
  exact hmatches.1

end

/-- An invitation that was sent is for whoever gives a text with the address that was typed as
its normal form, and both answers are refused to everybody else, with one exception: a text in
which a Kelvin sign stands is turned away. So the text that was typed is turned away, and a
text for which the invitation is listed, exactly if a Kelvin sign stands in it. -/
theorem Pool.addressee_recognised (clock : Instant) (random : RandomSource) (history : List Event)
    {n : Nat} {thread : Thread} {config : Config} {team inviter : Int} {email : String}
    {role : Role} {sent : SentInvitation}
    (hthread : ((start clock random).run history).threads[n]? = some thread)
    (hcall : thread.call = .act config (.sendInvitation team inviter email role))
    (hsent : thread.result? = some (.ok (.sent sent))) :
    let w := ((start clock random).run history).world
    sent.invitation.email = Email.normalize email ∧
    (∀ text, sent.invitation.isFor text = true ↔
      Email.normalize text = sent.invitation.email ∧ Text.kelvinSign ∉ text.toList) ∧
    (∀ text, w.TurnsAwayIff sent.token text
      ¬ (Email.normalize text = sent.invitation.email ∧ Text.kelvinSign ∉ text.toList)) ∧
    w.TurnsAwayIff sent.token email (Text.kelvinSign ∈ email.toList) ∧
    ∀ text, w.Shows text sent.invitation.id →
      w.TurnsAwayIff sent.token text (Text.kelvinSign ∈ text.toList) := by
  intro w
  have hstored := sent_stored clock random history hthread hcall hsent
  obtain ⟨hk, hroles⟩ := (noOwners_fits clock random history).inv
  have hfor := Invitation.isFor_iff hstored.checked
  -- the stored row is for the same address and has the same digest
  obtain ⟨i, hi, hoffer⟩ := hstored.row
  obtain ⟨hid, -, hemail, -, hhash, -⟩ := Invitation.offer_eq hoffer
  have hsame : ∀ text, i.isFor text = sent.invitation.isFor text := by
    intro text
    rw [Invitation.isFor, Invitation.isFor, hemail]
  have hfound : w.store.findInvitationByToken (Token.hash sent.token.plain) = some i := by
    rw [← hstored.token, ← hhash]
    exact hk.findInvitationByToken_of_mem hi
  have haway : ∀ text, w.TurnsAwayIff sent.token text
      ¬ (Email.normalize text = sent.invitation.email ∧ Text.kelvinSign ∉ text.toList) := by
    intro text
    have hnot : i.isFor text = false ↔ ¬ sent.invitation.isFor text = true := by
      rw [hsame, Bool.not_eq_true]
    rw [← hfor, ← hnot]
    exact ⟨fun user => accept_notAddressee_iff hk hroles hfound user text,
      reject_notAddressee_iff hfound text⟩
  have hlisted : ∀ text, Email.normalize text = sent.invitation.email →
      w.TurnsAwayIff sent.token text (Text.kelvinSign ∈ text.toList) := by
    intro text hnormal
    exact (haway text).congr (by simp [hnormal])
  refine ⟨hstored.email, hfor, haway, hlisted email hstored.email.symm, ?_⟩
  intro text hshows
  refine hlisted text ?_
  rw [← hemail]
  exact (email_of_shows hk hi (hid ▸ hshows)).symm

/-- What a thread sent, once it has returned. -/
def Thread.sent? (thread : Thread) : Option SentInvitation :=
  match thread.result? with
  | some (.ok (.sent sent)) => some sent
  | _ => none

theorem Thread.result?_of_sent? {thread : Thread} {sent : SentInvitation}
    (h : thread.sent? = some sent) : thread.result? = some (.ok (.sent sent)) := by
  unfold sent? at h
  split at h
  · rename_i hresult
    rw [hresult, Option.some.inj h]
  · cases h

namespace Pool

/-- An address as somebody types it who takes the Kelvin sign for a letter. -/
def kelvinAddress : String := "\u212A@b.co"

/-- A team is founded. -/
def kelvinTeam : List Event :=
  let founding : Call := .act .default (.createTeam
    { ownerId := 7
      name := "Core"
      description := none
      visibility := .everyone
      memberLimit := none })
  .begins founding :: List.replicate 4 (.proceeds 0)

/-- Its founder invites that address. -/
def kelvinCall : Call := .act .default (.sendInvitation 1 7 kelvinAddress .member)

/-- All that happens until the invitation is sent. -/
def kelvinHistory : List Event :=
  kelvinTeam ++ .begins kelvinCall :: List.replicate 10 (.proceeds 1)

/-- What can be decided of the invitation that was sent holds of it. -/
theorem kelvin_sent {p : SentInvitation → Bool}
    (h : (((start .epoch .sequence).run kelvinHistory).threads[1]?.bind
      Thread.sent?).any p = true) :
    ∃ thread sent, ((start .epoch .sequence).run kelvinHistory).threads[1]? = some thread ∧
      thread.call = kelvinCall ∧ thread.result? = some (.ok (.sent sent)) ∧ p sent = true := by
  obtain ⟨sent, hbind, hp⟩ := (Option.any_eq_true _ _).mp h
  obtain ⟨thread, hthread, hsent⟩ := Option.bind_eq_some_iff.mp hbind
  refine ⟨thread, sent, hthread, ?_, Thread.result?_of_sent? hsent, hp⟩
  obtain ⟨thread', hthread', hcall, -⟩ := fits_along Rely.keyed_governs
    (start_fits .epoch .sequence kelvinTeam) kelvinCall (List.replicate 10 (.proceeds 1))
  have hfirst : ((start .epoch .sequence).run kelvinTeam).threads.length = 1 := by decide +kernel
  rw [hfirst, ← run_cons, ← run_append] at hthread'
  obtain rfl := Option.some.inj (hthread'.symm.trans hthread)
  exact hcall

/-- The invitation is listed for the text that was typed, and both answers with that text are
refused as somebody else's. -/
theorem kelvin_turned_away :
    ∃ thread sent, ((start .epoch .sequence).run kelvinHistory).threads[1]? = some thread ∧
      thread.call = kelvinCall ∧ thread.result? = some (.ok (.sent sent)) ∧
      let w := ((start .epoch .sequence).run kelvinHistory).world
      Email.normalize kelvinAddress = sent.invitation.email ∧
      sent.invitation.isFor kelvinAddress = false ∧
      w.Shows kelvinAddress sent.invitation.id ∧
      ((acceptInvitation sent.token 8 kelvinAddress).run w).result =
        .error (.error .notAddressee) ∧
      ((rejectInvitation sent.token kelvinAddress).run w).result =
        .error (.error .notAddressee) := by
  obtain ⟨thread, sent, hthread, hcall, hsent, hdecided⟩ := kelvin_sent
    (p := fun sent =>
      let w := ((start .epoch .sequence).run kelvinHistory).world
      Email.normalize kelvinAddress = sent.invitation.email &&
      !sent.invitation.isFor kelvinAddress &&
      ((listMyInvitations kelvinAddress none .first).run w).result.toOption.any
        (·.any (·.invitation.id = sent.invitation.id)) &&
      ((acceptInvitation sent.token 8 kelvinAddress).run w).result =
        .error (.error .notAddressee) &&
      ((rejectInvitation sent.token kelvinAddress).run w).result =
        .error (.error .notAddressee))
    (by decide +kernel)
  simp only [Bool.and_eq_true, decide_eq_true_eq, Bool.not_eq_true'] at hdecided
  obtain ⟨⟨⟨⟨hnormal, hfor⟩, hlisted⟩, haccept⟩, hreject⟩ := hdecided
  refine ⟨thread, sent, hthread, hcall, hsent, hnormal, hfor, ?_, haccept, hreject⟩
  cases hviews : ((listMyInvitations kelvinAddress none .first).run
      ((start .epoch .sequence).run kelvinHistory).world).result with
  | error failure =>
    rw [hviews] at hlisted
    cases hlisted
  | ok views =>
    rw [hviews] at hlisted
    obtain ⟨view, hview, hid⟩ := List.any_eq_true.mp hlisted
    exact ⟨none, .first, views, hviews, view, hview, of_decide_eq_true hid⟩

/-- The general statement, of that invitation. -/
theorem addressee_recognised_of_kelvin :
    ∃ thread sent, ((start .epoch .sequence).run kelvinHistory).threads[1]? = some thread ∧
      thread.call = kelvinCall ∧ thread.result? = some (.ok (.sent sent)) ∧
      ((start .epoch .sequence).run kelvinHistory).world.TurnsAwayIff sent.token kelvinAddress
        (Text.kelvinSign ∈ kelvinAddress.toList) := by
  obtain ⟨thread, sent, hthread, hcall, hsent, -⟩ := kelvin_sent (p := fun _ => true)
    (by decide +kernel)
  refine ⟨thread, sent, hthread, hcall, hsent, ?_⟩
  exact (addressee_recognised .epoch .sequence kelvinHistory hthread hcall hsent).2.2.2.1

end Pool

end Roster
