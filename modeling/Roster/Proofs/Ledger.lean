import Mathlib.Data.List.Pairwise
import Roster.Proofs.Deed.Rows
import Roster.Proofs.Pool
import Roster.Proofs.Tables.Changes

/-!
# Every change has one author, who reports it

A pool keeps no account of who changed what. This module keeps one beside it:

* `Pool.ledger` — every change that the events make, with the thread whose step
  made it;
* `Call.Reports` — the changes that a call answers for with its result;
* `Pool.Accounted` — every change is in the account of a thread, every thread
  reports what is in its account, and no invitation moved twice;
* `Pool.one_winner` — pools that start on an empty store are accounted for,
  whatever happens in them.
-/

namespace Roster

/-- A change, and the thread whose step made it. -/
structure Entry where
  thread? : Option Nat
  change : Change

namespace Pool

/-- The changes that events make, in order. -/
def ledger (pool : Pool) : List Event → List Entry
  | [] => []
  | event :: rest =>
    (pool.world.store.changes (pool.step event).world.store).map (⟨event.thread?, ·⟩) ++
      (pool.step event).ledger rest

/-- The changes in a ledger that a thread made. -/
def madeBy (i : Nat) (ledger : List Entry) : List Change :=
  (ledger.filter (·.thread? = some i)).map (·.change)

end Pool

/-- The changes behind an answer: accepting an invitation moved the one behind
the token and enrolled the user, the other answers moved what they report, and
founding a team enrolled its owner. No other answer has changes behind it. -/
def Call.Made (tables : Tables) (answer : Answer) (changes : List Change) : Call → Prop
  | .act _ (.acceptInvitation token user _) => ∃ member i, answer = .member member ∧
    i ∈ tables.invitations ∧ i.tokenHash = Token.hash token.plain ∧ i.teamId = member.teamId ∧
    i.role = member.role ∧ member.userId = user ∧
    changes = [.moved i.id .accepted, .joined member.teamId member.userId]
  | .act _ (.rejectInvitation token _) => ∃ rejected, answer = .invitation rejected ∧
    rejected.tokenHash = Token.hash token.plain ∧ changes = [.moved rejected.id .rejected]
  | .act _ (.revokeInvitation id _) => changes = [.moved id .revoked]
  | .act _ (.deleteTeam _ _) => ∃ ids : List Int, answer = .count ids.length ∧
    changes = ids.map (.moved · .revoked)
  | .act _ (.expireStaleInvitations _) => ∃ ids : List Int, answer = .count ids.length ∧
    changes = ids.map (.moved · .expired)
  | .act _ (.createTeam _) => ∃ team, answer = .team team ∧
    changes = [.joined team.id team.ownerId]
  | _ => changes = []

/-- The changes that a call answers for by what it came to. A failure has none
behind it, but that an accept may have written down the expiry that it
reports. -/
def Call.Reports (tables : Tables) (call : Call) :
    Option (Except Failure Answer) → List Change → Prop
  | none, changes => changes = []
  | some (.ok answer), changes => call.Made tables answer changes
  | some (.error failure), changes => changes = [] ∨ ∃ config token user email,
    call = .act config (.acceptInvitation token user email) ∧
      ∃ i ∈ tables.invitations, i.tokenHash = Token.hash token.plain ∧
        failure = .error (.invitationExpired i.id) ∧ changes = [.moved i.id .expired]

namespace Call.Reports

variable {call : Call} {s s' : Tables} {result : Except Failure Answer} {changes : List Change}

/-- A call that came to its result without a deed has nothing to report. -/
theorem quiet (h : call.Quiet result) : call.Reports s (some result) [] := by
  cases result with
  | error failure => exact .inl rfl
  | ok answer =>
    rcases h with hreads | ⟨failure, hfailure⟩
    · show call.Made s answer []
      unfold Call.Made
      split
      -- a call that changes something is no reading call
      case h_7 => rfl
      all_goals cases hreads
    · cases hfailure

/-- What was reported once stays true. -/
theorem evolves {result? : Option (Except Failure Answer)} (hevolves : s.Evolves s')
    (h : call.Reports s result? changes) : call.Reports s' result? changes := by
  cases result? with
  | none => exact h
  | some result =>
    cases result with
    | error failure =>
      rcases h with hnil | ⟨config, token, user, email, hcall, i, hi, hhash, hfailure, hchanges⟩
      · exact .inl hnil
      · obtain ⟨i', hi', hoffer, -⟩ := hevolves.invitations i hi
        obtain ⟨hid, -, -, -, hhash', -⟩ := Invitation.offer_eq hoffer
        refine .inr ⟨config, token, user, email, hcall, i', hi', hhash'.trans hhash, ?_⟩
        rw [hid]
        exact ⟨hfailure, hchanges⟩
    | ok answer =>
      have hmade : call.Made s answer changes := h
      show call.Made s' answer changes
      unfold Call.Made at hmade ⊢
      split at hmade
      case h_1 =>
        obtain ⟨member, i, hanswer, hi, hhash, hteam, hrole, huser, hchanges⟩ := hmade
        obtain ⟨i', hi', hoffer, -⟩ := hevolves.invitations i hi
        obtain ⟨hid, hteam', -, hrole', hhash', -⟩ := Invitation.offer_eq hoffer
        refine ⟨member, i', hanswer, hi', hhash'.trans hhash, hteam'.trans hteam,
          hrole'.trans hrole, huser, ?_⟩
        rw [hid]
        exact hchanges
      all_goals exact hmade

end Call.Reports

section

variable {rely : Rely} {call : Call} {w : World Tables} {s : Tables}
  {result : Except Failure Answer}

/-- The invitation behind a token is still there, with its offer. -/
theorem Presented.stored (horderly : rely.Orderly) {token : Secret} {email : String}
    {invitation : Invitation} (h : Presented rely token email w invitation) :
    invitation.tokenHash = Token.hash token.plain ∧
      ∃ i ∈ w.store.invitations, i.offer = invitation.offer := by
  obtain ⟨v, hinv, hlead, hfound⟩ := h.found
  obtain ⟨hmem, hhash⟩ := Tables.findInvitationByToken_some hfound
  obtain ⟨i, hi, hoffer, -⟩ := (horderly.evolves hlead).invitations invitation hmem
  exact ⟨hhash, i, hi, hoffer⟩

/-- An acceptance moves the invitation behind the token and enrols the user. -/
theorem Acceptance.changes_eq (horderly : rely.Orderly) (hinv : rely.inv w) {token : Secret}
    {user : Int} {email : String} {invitation : Invitation} {member : Member}
    (h : Acceptance rely token user email invitation w s member) :
    w.store.changes s =
      [.moved invitation.id .accepted, .joined member.teamId member.userId] := by
  obtain ⟨-, -, -, hnew, hperm⟩ := h.members_perm
  obtain ⟨team, joined, accepted, -, -, hadd, hsettle⟩ := h.written
  have hkeyed := Tables.addMember_keyed hadd (horderly.keyed hinv)
  have hmoves := Tables.moves_settle hkeyed hsettle (by decide)
  -- the enrolment before the settlement left the invitations alone
  have hinvitations : w.store.invitations = joined.invitations := by
    obtain ⟨-, -, -, heq⟩ := Tables.addMember_ok hadd
    rw [heq]
  rw [Tables.changes, Tables.moves_congr hinvitations rfl, hmoves,
    Tables.joins_of_perm hnew hperm]
  rfl

/-- A founding enrols the owner. -/
theorem Founding.changes_eq (hk : s.Keyed) {config : Config} {input : CreateTeam}
    {name : String} {now : Instant} {team : Team}
    (h : Founding rely config input name now w s team) :
    w.store.changes s = [.joined team.id team.ownerId] := by
  obtain ⟨member, hteam, huser, hnew, hperm⟩ := h.members_perm
  rw [Tables.changes, Tables.moves_self hk h.invitations_eq, Tables.joins_of_perm hnew hperm,
    hteam, huser]
  rfl

/-- The result of a deed reports its changes. -/
theorem Call.Deed.reports (horderly : rely.Orderly) (hinv : rely.inv w)
    (h : call.Deed rely w s result) : call.Reports s (some result) (w.store.changes s) := by
  have hk := horderly.keyed hinv
  have hk' := h.keyed horderly hinv
  have hevolves := h.evolves horderly hinv
  cases h with
  | founds h => exact ⟨_, rfl, h.changes_eq hk'⟩
  | updates h => exact Tables.changes_eq_nil hk' h.frame.2 h.frame.1
  | dissolves h =>
    obtain ⟨deleted, hdelete, hsettle⟩ := h.written
    have hkeyed := Tables.deleteTeam_keyed hdelete hk
    obtain ⟨ids, hlength, hchanges⟩ := Tables.changes_settleAll hkeyed hsettle (by decide)
    obtain ⟨-, rfl⟩ := Tables.deleteTeam_ok hdelete
    refine ⟨ids, congrArg Answer.count hlength.symm, ?_⟩
    exact (Tables.changes_congr rfl rfl rfl rfl).trans hchanges
  | changesRole _ h => exact Tables.changes_setRole hk h.written
  | removes _ h => exact Tables.changes_removeMember hk h.written
  | leaves _ h => exact Tables.changes_removeMember hk h.written
  | sends h _ => exact Tables.changes_createInvitation hk h.written
  | accepts h =>
    obtain ⟨hhash, i, hi, hoffer⟩ := h.presented.stored horderly
    obtain ⟨hteam, huser, hrole, -⟩ := h.members_perm
    obtain ⟨i', hi', hoffer', -⟩ := hevolves.invitations i hi
    obtain ⟨hid, hteam', -, hrole', hhash', -⟩ := Invitation.offer_eq (hoffer'.trans hoffer)
    refine ⟨_, i', rfl, hi', hhash'.trans hhash, hteam'.trans hteam.symm,
      hrole'.trans hrole.symm, huser, ?_⟩
    rw [hid]
    exact h.changes_eq horderly hinv
  | lapses h =>
    obtain ⟨hhash, i, hi, hoffer⟩ := h.presented.stored horderly
    obtain ⟨now, lapsed, hsettle⟩ := h.written
    obtain ⟨i', hi', hoffer', -⟩ := hevolves.invitations i hi
    obtain ⟨hid, -, -, -, hhash', -⟩ := Invitation.offer_eq (hoffer'.trans hoffer)
    refine .inr ⟨_, _, _, _, rfl, i', hi', hhash'.trans hhash, ?_⟩
    rw [hid]
    exact ⟨rfl, Tables.changes_settle hk hsettle (by decide)⟩
  | rejects h =>
    obtain ⟨hhash, i, hi, hoffer⟩ := h.presented.stored horderly
    obtain ⟨now, hsettle⟩ := h.written
    have hchanges := Tables.changes_settle hk hsettle (by decide)
    obtain ⟨found, hfound, -, rfl, -⟩ := Tables.settleInvitation_ok hsettle
    obtain ⟨hmem, hfid⟩ := Tables.findInvitation_some hfound
    obtain ⟨hid, -, -, -, hhash', -⟩ := Invitation.offer_eq hoffer
    have heq : found = i := hk.invitation_eq hmem hi (hfid.trans hid.symm)
    subst heq
    refine ⟨_, rfl, hhash'.trans hhash, ?_⟩
    rw [hchanges, ← hfid]
    rfl
  | revokes h =>
    obtain ⟨v, -, -, hfound⟩ := h.found
    obtain ⟨-, rfl⟩ := Tables.findInvitation_some hfound
    obtain ⟨now, hsettle⟩ := h.written
    exact Tables.changes_settle hk hsettle (by decide)
  | sweeps h =>
    obtain ⟨ids, hlength, hchanges⟩ := Tables.changes_settleAll hk h.written (by decide)
    exact ⟨ids, congrArg Answer.count hlength.symm, hchanges⟩
  | changesRoleDirectly h => exact Tables.changes_setRole hk h.written
  | removesDirectly h => exact Tables.changes_removeMember hk h.written
  | leavesDirectly h => exact Tables.changes_removeMember hk h.written

end

namespace Pool

/-! ## Accounts -/

variable {rely : Rely} {pool pool' : Pool} {event : Event} {entries : List Entry}

/-- One more event adds its changes to the end of the ledger. -/
theorem ledger_append_singleton (pool : Pool) (events : List Event) (event : Event) :
    pool.ledger (events ++ [event]) = pool.ledger events ++
      ((pool.run events).world.store.changes
        (pool.run (events ++ [event])).world.store).map (⟨event.thread?, ·⟩) := by
  induction events generalizing pool with
  | nil => simp [ledger]
  | cons first rest ih =>
    rw [List.cons_append, ledger, ih, ledger, List.append_assoc]
    rfl

theorem madeBy_append (i : Nat) (entries more : List Entry) :
    madeBy i (entries ++ more) = madeBy i entries ++ madeBy i more := by
  simp [madeBy]

theorem madeBy_eq_nil {i : Nat} (h : ∀ entry ∈ entries, entry.thread? ≠ some i) :
    madeBy i entries = [] := by
  rw [madeBy, List.map_eq_nil_iff, List.filter_eq_nil_iff]
  intro entry hentry
  simpa using h entry hentry

theorem madeBy_own (i : Nat) (changes : List Change) :
    madeBy i (changes.map (⟨some i, ·⟩)) = changes := by
  have hall : ∀ entry ∈ changes.map (Entry.mk (some i) ·),
      decide (entry.thread? = some i) = true := by
    intro entry hentry
    obtain ⟨change, -, rfl⟩ := List.mem_map.mp hentry
    exact decide_eq_true rfl
  rw [madeBy, List.filter_eq_self.mpr hall, List.map_map]
  exact List.map_id _

/-- Every change is in the account of a thread, every thread reports what is in
its account, and no invitation moved twice. -/
structure Accounted (pool : Pool) (entries : List Entry) : Prop where
  authors : ∀ entry ∈ entries, ∃ i < pool.threads.length, entry.thread? = some i
  reports : ∀ (i : Nat) (thread : Thread), pool.threads[i]? = some thread →
    thread.call.Reports pool.world.store thread.result? (madeBy i entries)
  once : (entries.filterMap (·.change.moved?)).Nodup
  settled : ∀ id ∈ entries.filterMap (·.change.moved?),
    ∃ i ∈ pool.world.store.invitations, i.id = id ∧ i.isPending = false

/-- A thread that has come to nothing yet has an empty account. -/
theorem Accounted.pending (h : pool.Accounted entries) {i : Nat} {thread : Thread}
    (hthread : pool.threads[i]? = some thread) (hnone : thread.result? = none) :
    madeBy i entries = [] := by
  have hreports := h.reports i thread hthread
  rw [hnone] at hreports
  exact hreports

/-- An invitation has one mover. -/
theorem Accounted.mover_unique (h : pool.Accounted entries) {id : Int}
    {status status' : InvitationStatus} {i j : Nat}
    (hi : Change.moved id status ∈ madeBy i entries)
    (hj : Change.moved id status' ∈ madeBy j entries) : i = j := by
  obtain ⟨first, hfirst, hmoved⟩ := List.mem_map.mp hi
  obtain ⟨second, hsecond, hmoved'⟩ := List.mem_map.mp hj
  obtain ⟨hmem, hauthor⟩ := List.mem_filter.mp hfirst
  obtain ⟨hmem', hauthor'⟩ := List.mem_filter.mp hsecond
  have hpairwise := List.pairwise_filterMap.mp h.once
  by_cases hsame : first = second
  · subst hsame
    have hthreads := (of_decide_eq_true hauthor).symm.trans (of_decide_eq_true hauthor')
    exact Option.some.inj hthreads
  · -- two entries about one invitation are never apart in the ledger
    have hsymm : Std.Symm fun a b : Entry =>
        ∀ x, a.change.moved? = some x → ∀ y, b.change.moved? = some y → x ≠ y :=
      ⟨fun _ _ hab x hx y hy => (hab y hy x hx).symm⟩
    have hid : first.change.moved? = some id := by rw [hmoved]; rfl
    have hid' : second.change.moved? = some id := by rw [hmoved']; rfl
    exact absurd rfl (hpairwise.forall hmem hmem' hsame id hid id hid')

/-- An event that is no deed changes nothing that is accounted for. -/
theorem Course.changes_eq (hk : pool.world.store.Keyed) (hk' : pool'.world.store.Keyed)
    (hcourse : Course rely pool event pool') :
    pool.world.store.changes pool'.world.store = [] ∨
      ∃ i thread, event.thread? = some i ∧ pool.threads[i]? = some thread := by
  cases hcourse with
  | begins => exact .inl (Tables.changes_eq_nil hk rfl rfl)
  | surroundings _ _ hmembers hinvitations =>
    exact .inl (Tables.changes_eq_nil hk' hinvitations hmembers)
  | misses => exact .inl (Tables.changes_eq_nil hk rfl rfl)
  | idles => exact .inl (Tables.changes_eq_nil hk rfl rfl)
  | acts _ hthread => exact .inr ⟨_, _, rfl, hthread⟩

/-- No thread is lost. -/
theorem Course.length_le (hcourse : Course rely pool event pool') :
    pool.threads.length ≤ pool'.threads.length := by
  cases hcourse with
  | begins => simp
  | surroundings => exact Nat.le_refl _
  | misses => exact Nat.le_refl _
  | idles => simp
  | acts => simp

/-- After an event every thread still reports what is in its account. -/
theorem Accounted.reports_step (horderly : rely.Orderly) (hinv : rely.inv pool.world)
    (hk' : pool'.world.store.Keyed) (hevolves : pool.world.store.Evolves pool'.world.store)
    (h : pool.Accounted entries) (hcourse : Course rely pool event pool') (j : Nat)
    (thread : Thread) (hthread : pool'.threads[j]? = some thread) :
    thread.call.Reports pool'.world.store thread.result?
      (madeBy j (entries ++
        (pool.world.store.changes pool'.world.store).map (⟨event.thread?, ·⟩))) := by
  have hk := horderly.keyed hinv
  -- threads that the event does not touch report what they reported
  have hold : ∀ t, pool.threads[j]? = some t →
      t.call.Reports pool'.world.store t.result? (madeBy j entries) := by
    intro t ht
    exact (h.reports j t ht).evolves hevolves
  cases hcourse with
  | begins call hquiet =>
    rw [Tables.changes_eq_nil hk rfl rfl, List.map_nil, List.append_nil]
    rcases Nat.lt_or_ge j pool.threads.length with hlt | hge
    · rw [List.getElem?_append_left hlt] at hthread
      exact hold thread hthread
    · -- the thread that begins has no entries yet
      have hempty : madeBy j entries = [] := by
        apply madeBy_eq_nil
        intro entry hentry heq
        obtain ⟨i, hi, hentry'⟩ := h.authors entry hentry
        rw [heq] at hentry'
        have hji : j = i := Option.some.inj hentry'
        omega
      rw [List.getElem?_append_right hge] at hthread
      have hnew := List.mem_singleton.mp (List.mem_of_getElem? hthread)
      subst hnew
      rw [hempty]
      show call.Reports pool.world.store call.program.outcome? []
      cases hout : call.program.outcome? with
      | none => rfl
      | some result => exact Call.Reports.quiet (hquiet result hout)
  | surroundings _ _ hmembers hinvitations =>
    rw [Tables.changes_eq_nil hk' hinvitations hmembers, List.map_nil, List.append_nil]
    exact hold thread hthread
  | misses =>
    rw [Tables.changes_eq_nil hk rfl rfl, List.map_nil, List.append_nil]
    exact hold thread hthread
  | @idles i before after random hbefore hcall hresult =>
    rw [Tables.changes_eq_nil hk rfl rfl, List.map_nil, List.append_nil]
    rcases getElem?_set_cases hthread with ⟨rfl, rfl⟩ | ⟨-, hother⟩
    · rw [hcall]
      rcases hresult with hsame | ⟨hnone, hquiet⟩
      · rw [hsame]
        exact hold before hbefore
      · rw [h.pending hbefore hnone]
        cases hout : after.result? with
        | none => rfl
        | some result => exact Call.Reports.quiet (hquiet result hout)
    · exact hold thread hother
  | @acts i before after s result random hbefore hcall hnone hout hdeed =>
    rw [madeBy_append]
    rcases getElem?_set_cases hthread with ⟨rfl, rfl⟩ | ⟨hij, hother⟩
    · -- the account was empty, and the deed is all that comes into it
      rw [hcall, hout, h.pending hbefore hnone, List.nil_append]
      rw [show (Event.proceeds i).thread? = some i from rfl, madeBy_own]
      exact hdeed.reports horderly hinv
    · -- none of the new entries is by another thread
      have hnone' : madeBy j ((pool.world.store.changes s).map (⟨some i, ·⟩)) = [] := by
        refine madeBy_eq_nil ?_
        intro entry hentry heq
        obtain ⟨change, -, rfl⟩ := List.mem_map.mp hentry
        exact hij (Option.some.inj heq)
      rw [show (Event.proceeds i).thread? = some i from rfl, hnone', List.append_nil]
      exact hold thread hother

/-- Pools stay accounted for. -/
theorem Accounted.step (horderly : rely.Orderly) (hinv : rely.inv pool.world)
    (hk' : pool'.world.store.Keyed) (hevolves : pool.world.store.Evolves pool'.world.store)
    (h : pool.Accounted entries) (hcourse : Course rely pool event pool') :
    pool'.Accounted (entries ++
      (pool.world.store.changes pool'.world.store).map (⟨event.thread?, ·⟩)) := by
  have hk := horderly.keyed hinv
  have hnew : ((pool.world.store.changes pool'.world.store).map
        (Entry.mk event.thread? ·)).filterMap (·.change.moved?) =
      (pool.world.store.moves pool'.world.store).filterMap Change.moved? := by
    rw [List.filterMap_map]
    exact Tables.filterMap_changes
  have hmoved : ∀ id ∈ (pool.world.store.moves pool'.world.store).filterMap Change.moved?,
      ∃ i ∈ pool.world.store.invitations, ∃ i' ∈ pool'.world.store.invitations,
        i.id = id ∧ i'.id = id ∧ i.isPending = true ∧ i'.isPending = false := by
    intro id hid
    obtain ⟨change, hchange, heq⟩ := List.mem_filterMap.mp hid
    obtain ⟨i, hi, i', hi', hoffer, hpending, hsettled, rfl⟩ :=
      Tables.mem_moves hk' hevolves hchange
    have hiid : i.id = id := Option.some.inj heq
    exact ⟨i, hi, i', hi', hiid, (Invitation.offer_eq hoffer).1.trans hiid, hpending, hsettled⟩
  refine ⟨?_, h.reports_step horderly hinv hk' hevolves hcourse, ?_, ?_⟩
  · intro entry hentry
    rcases List.mem_append.mp hentry with hentry | hentry
    · obtain ⟨i, hi, hauthor⟩ := h.authors entry hentry
      exact ⟨i, Nat.lt_of_lt_of_le hi hcourse.length_le, hauthor⟩
    · obtain ⟨change, hchange, rfl⟩ := List.mem_map.mp hentry
      rcases hcourse.changes_eq hk hk' with hnil | ⟨i, thread, hevent, hthread⟩
      · rw [hnil] at hchange
        cases hchange
      · obtain ⟨hi, -⟩ := List.getElem?_eq_some_iff.mp hthread
        exact ⟨i, Nat.lt_of_lt_of_le hi hcourse.length_le, hevent⟩
  · rw [List.filterMap_append, hnew]
    refine List.nodup_append.mpr ⟨h.once, Tables.moves_nodup hk, ?_⟩
    intro id hid id' hid' heq
    -- what moves now was pending, so it is not what moved before
    subst heq
    obtain ⟨i, hi, hiid, hsettled⟩ := h.settled id hid
    obtain ⟨i', hi', -, -, hiid', -, hpending, -⟩ := hmoved id hid'
    have hsame := hk.invitation_eq hi hi' (hiid.trans hiid'.symm)
    rw [hsame, hpending] at hsettled
    cases hsettled
  · intro id hid
    rw [List.filterMap_append, hnew] at hid
    rcases List.mem_append.mp hid with hid | hid
    · obtain ⟨i, hi, hiid, hsettled⟩ := h.settled id hid
      obtain ⟨i', hi', -, hfinal⟩ := hevolves.invitations i hi
      have hsame := hfinal hsettled
      subst hsame
      exact ⟨i', hi', hiid, hsettled⟩
    · obtain ⟨-, -, i', hi', -, hiid', -, hsettled⟩ := hmoved id hid
      exact ⟨i', hi', hiid', hsettled⟩

/-- Pools whose tables are keyed are accounted for, whatever happens in
them. -/
theorem accounted_run (hgoverns : rely.Governs) (horderly : rely.Orderly) {w : World Tables}
    (hinv : rely.inv w) (events : List Event) :
    ((Pool.mk w []).run events).Accounted ((Pool.mk w []).ledger events) := by
  induction events using List.reverseRecOn with
  | nil =>
    refine ⟨?_, ?_, List.nodup_nil, ?_⟩
    · intro entry hentry
      exact absurd hentry List.not_mem_nil
    · intro i thread hthread
      exact absurd (List.mem_of_getElem? hthread) List.not_mem_nil
    · intro id hid
      exact absurd hid List.not_mem_nil
  | append_singleton events event ih =>
    have hfits := (fits_run hgoverns (fits_nil hinv) events).1
    obtain ⟨hcourse, hfits', hlead⟩ := course_step hgoverns hfits event
    rw [ledger_append_singleton, run_append_singleton]
    exact ih.step horderly hfits.inv (horderly.keyed hfits'.inv) (horderly.evolves hlead) hcourse

/-- Pools that start on an empty store are accounted for. -/
theorem accounted_start (clock : Instant) (random : RandomSource) (events : List Event) :
    ((start clock random).run events).Accounted ((start clock random).ledger events) :=
  accounted_run Rely.keyed_governs (Rely.among_orderly _) ⟨Tables.empty_keyed, trivial⟩ events

/-- Whatever runs together, no invitation comes to another status twice, every
change is the step of a call, and every call reports exactly the changes that its
own steps made. -/
theorem one_winner (clock : Instant) (random : RandomSource) (events : List Event) :
    let pool := (start clock random).run events
    let entries := (start clock random).ledger events
    (entries.filterMap (·.change.moved?)).Nodup ∧
      (∀ entry ∈ entries, ∃ i < pool.threads.length, entry.thread? = some i) ∧
      ∀ (i : Nat) (thread : Thread), pool.threads[i]? = some thread →
        thread.call.Reports pool.world.store thread.result? (madeBy i entries) := by
  intro pool entries
  have haccounted : pool.Accounted entries := accounted_start clock random events
  exact ⟨haccounted.once, haccounted.authors, haccounted.reports⟩

/-- A user accepts an invitation while its sender withdraws it, and both have seen
it pending: the next step of either is its write. -/
def rivals : List Event :=
  let act (action : Action) : Event := .begins (.act .default action)
  let steps (i count : Nat) : List Event := List.replicate count (.proceeds i)
  [.insertUser "ann@example.org" "Ann",
    act (.createTeam
      { ownerId := 7
        name := "Core"
        description := none
        visibility := .everyone
        memberLimit := none })] ++ steps 0 3 ++
  act (.sendInvitation 1 7 "ann@example.org" .member) :: steps 1 9 ++
  act (.acceptInvitation ⟨(RandomSource.sequence.token 32).1⟩ 1 "ann@example.org") ::
  act (.revokeInvitation 1 7) :: steps 2 2 ++ steps 3 3

/-- The addressee goes first. -/
def acceptAndRevoke : List Event := rivals ++ [.proceeds 2, .proceeds 3]

theorem one_winner_of_accept_and_revoke :
    ((start .epoch .sequence).ledger acceptAndRevoke).map (fun entry =>
        (entry.thread?, entry.change)) =
        [(some 0, .joined 1 7), (some 2, .moved 1 .accepted), (some 2, .joined 1 1)] ∧
      (((start .epoch .sequence).ledger acceptAndRevoke).filterMap (·.change.moved?)).Nodup ∧
      ∃ thread, ((start .epoch .sequence).run acceptAndRevoke).threads[3]? = some thread ∧
        thread.result?.map Except.isOk = some false ∧
        thread.call.Reports ((start .epoch .sequence).run acceptAndRevoke).world.store
          thread.result? (madeBy 3 ((start .epoch .sequence).ledger acceptAndRevoke)) := by
  have hlost : ((start .epoch .sequence).run acceptAndRevoke).threads[3]?.bind
      (fun thread => thread.result?.map Except.isOk) = some false := by
    decide +kernel
  obtain ⟨thread, hthread, hresult⟩ := Option.bind_eq_some_iff.mp hlost
  have hwinner := one_winner .epoch .sequence acceptAndRevoke
  refine ⟨?_, hwinner.1, thread, hthread, hresult, hwinner.2.2 3 thread hthread⟩
  decide +kernel

end Pool

end Roster
