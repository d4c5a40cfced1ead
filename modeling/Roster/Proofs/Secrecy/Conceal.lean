import Mathlib.Logic.Relator
import Roster.Proofs.Tables.Keyed

/-!
# Tables without digests

The digest of a token is the one trace that a token leaves in a store.

* `Invitation.conceal`, `Tables.conceal`, `StoreCall.conceal` — an invitation,
  the tables and a reply with the digests erased;
* `StoreCall.isBlind` — the calls that do not mention a digest.
  `Tables.perform_conceal` says that what comes of such a call does not depend
  on digests, and `Tables.perform_digests` that it leaves them as they are;
* `Tables.Alike` — two stores that are equal but for their digests, which
  correspond one to one;
* `Tables.Alike.perform`, `Tables.Alike.createInvitation`,
  `Tables.Alike.findInvitationByToken` — alike stores answer alike.
-/

namespace Roster

/-! ## Erasing digests -/

/-- The invitation without the digest of its token. -/
def Invitation.conceal (invitation : Invitation) : Invitation :=
  { invitation with tokenHash := "" }

/-- Invitations that are equal but for the digest. -/
theorem Invitation.eq_of_conceal {i j : Invitation} (h : i.conceal = j.conceal) :
    ∃ digest, j = { i with tokenHash := digest } := by
  refine ⟨j.tokenHash, ?_⟩
  cases i
  cases j
  cases h
  rfl

/-- The tables without digests. -/
def Tables.conceal (s : Tables) : Tables :=
  { s with invitations := s.invitations.map (·.conceal) }

/-- The digests in the order of the invitations. -/
def Tables.digests (s : Tables) : List String :=
  s.invitations.map (·.tokenHash)

namespace StoreCall

/-- A reply without digests. -/
def conceal : {α : Type} → StoreCall α → α → α
  | _, .createInvitation _, reply => reply.conceal
  | _, .findInvitation _, reply => reply.map (·.conceal)
  | _, .findInvitationByToken _, reply => reply.map (·.conceal)
  | _, .findPendingInvitation _ _, reply => reply.map (·.conceal)
  | _, .listInvitationsOf _ _ _, reply => reply.map (·.conceal)
  | _, .listInvitationsTo _ _ _, reply => reply.map (·.conceal)
  | _, .settleInvitation _ _ _, reply => reply.map (·.conceal)
  | _, _, reply => reply

/-- Whether the call does not mention a digest. -/
def isBlind : {α : Type} → StoreCall α → Bool
  | _, .createInvitation _ => false
  | _, .findInvitationByToken _ => false
  | _, _ => true

end StoreCall

namespace Tables

variable (s : Tables)

/-! ### What does not depend on digests -/

theorem conceal_findInvitation (id : Int) :
    s.conceal.findInvitation id = (s.findInvitation id).map (·.conceal) :=
  List.find?_map

theorem conceal_findPendingInvitation (team : Int) (email : String) :
    s.conceal.findPendingInvitation team email =
      (s.findPendingInvitation team email).map (·.conceal) :=
  List.find?_map

theorem conceal_listInvitations {p : Invitation → Bool} (hp : ∀ i, p i.conceal = p i)
    (status : Option InvitationStatus) (page : Page) :
    s.conceal.listInvitations p status page =
      (s.listInvitations p status page).map (·.conceal) := by
  have hfilter : s.conceal.invitations.filter (fun i => p i && status.all (i.status = ·)) =
      (s.invitations.filter fun i => p i && status.all (i.status = ·)).map (·.conceal) := by
    rw [conceal, List.filter_map]
    congr 2
    funext i
    exact congrArg (· && status.all (i.status = ·)) (hp i)
  rw [listInvitations, listInvitations, hfilter, ← Page.slice_map, List.map_mergeSort]
  exact fun _ _ _ _ => rfl

theorem conceal_settleInvitation (id : Int) (status : InvitationStatus) (now : Instant) :
    s.conceal.settleInvitation id status now =
      (s.settleInvitation id status now).map (Prod.map (Option.map (·.conceal)) conceal) := by
  unfold settleInvitation
  rw [conceal_findInvitation]
  by_cases hfail : s.failSettling = true
  · rw [if_pos hfail, if_pos (show s.conceal.failSettling = true from hfail)]
    rfl
  · rw [if_neg hfail, if_neg (show ¬ s.conceal.failSettling = true from hfail)]
    cases s.findInvitation id with
    | none => rfl
    | some found =>
      by_cases hpending : found.isPending = true
      · simp only [Option.map_some, if_pos hpending,
          if_pos (show found.conceal.isPending = true from hpending), Except.map, Prod.map]
        simp only [conceal, List.map_map, Function.comp_def, apply_ite Invitation.conceal]
        rfl
      · simp only [Option.map_some, if_neg hpending,
          if_neg (show ¬ found.conceal.isPending = true from hpending), Except.map, Prod.map,
          Option.map_none]

theorem conceal_settleAll {p : Invitation → Bool} (hp : ∀ i, p i.conceal = p i)
    (status : InvitationStatus) :
    s.conceal.settleAll p status = Prod.map id conceal (s.settleAll p status) := by
  have hmoves : ∀ i : Invitation, (i.conceal.isPending && p i.conceal) = (i.isPending && p i) :=
    fun i => congrArg (i.isPending && ·) (hp i)
  simp only [settleAll, conceal, List.countP_map, List.map_map, Function.comp_def, hmoves, Prod.map,
    id, apply_ite Invitation.conceal]
  rfl

/-- What comes of a call that mentions no digest does not depend on digests. -/
theorem perform_conceal {α : Type} {call : StoreCall α} (hblind : call.isBlind = true) :
    s.conceal.perform call = (s.perform call).map (Prod.map call.conceal conceal) := by
  cases call with
  | createInvitation | findInvitationByToken => cases hblind
  | createTeam draft =>
    simp only [perform, createTeam, show s.conceal.slugInUse = s.slugInUse from rfl]
    split <;> rfl
  | updateTeam team =>
    simp only [perform, updateTeam, show s.conceal.slugInUse = s.slugInUse from rfl,
      show s.conceal.findTeam = s.findTeam from rfl]
    split
    · rfl
    · split <;> rfl
  | deleteTeam team now =>
    simp only [perform, deleteTeam, show s.conceal.findTeam = s.findTeam from rfl]
    split <;> rfl
  | addMember draft =>
    simp only [perform, addMember, show s.conceal.isMember = s.isMember from rfl]
    split <;> rfl
  | setRole team user role now =>
    simp only [perform, setRole, show s.conceal.findMember = s.findMember from rfl]
    split <;> rfl
  | removeMember team user =>
    simp only [perform, removeMember, show s.conceal.isMember = s.isMember from rfl]
    split <;> rfl
  | findInvitation id => exact congrArg s.conceal.reading (s.conceal_findInvitation id)
  | findPendingInvitation team email =>
    exact congrArg s.conceal.reading (s.conceal_findPendingInvitation team email)
  | listInvitationsOf team status page =>
    exact congrArg s.conceal.reading (s.conceal_listInvitations (fun _ => rfl) status page)
  | listInvitationsTo email status page =>
    exact congrArg s.conceal.reading (s.conceal_listInvitations (fun _ => rfl) status page)
  | settleInvitation id status now => exact s.conceal_settleInvitation id status now
  | revokePending team => exact congrArg Except.ok (s.conceal_settleAll (fun _ => rfl) .revoked)
  | expireStale team now => exact congrArg Except.ok (s.conceal_settleAll (fun _ => rfl) .expired)
  | _ => rfl

/-- A call that mentions no digest leaves the digests as they are. -/
theorem perform_digests {s s' : Tables} {α : Type} {call : StoreCall α} {reply : α}
    (hblind : call.isBlind = true) (h : s.perform call = .ok (reply, s')) (hk : s.Keyed) :
    s'.digests = s.digests := by
  cases call with
  | createInvitation | findInvitationByToken => cases hblind
  | createTeam draft =>
    obtain ⟨-, -, rfl⟩ := createTeam_ok h
    rfl
  | updateTeam team =>
    obtain ⟨-, -, -, rfl⟩ := updateTeam_ok h
    rfl
  | deleteTeam team now =>
    obtain ⟨-, rfl⟩ := deleteTeam_ok h
    rfl
  | addMember draft =>
    obtain ⟨-, -, -, hrest⟩ := addMember_ok h
    rw [hrest]
    rfl
  | setRole team user role now =>
    obtain ⟨_, -, -, rfl⟩ := setRole_ok h
    rfl
  | removeMember team user =>
    obtain ⟨-, rfl⟩ := removeMember_ok h
    rfl
  | settleInvitation id status now =>
    cases reply with
    | none => rw [settleInvitation_none h]
    | some settled =>
      obtain ⟨f, rfl, hoffers⟩ := settleInvitation_offers h hk
      exact map_tokenHash_of_offer hoffers
  | revokePending team =>
    obtain ⟨f, rfl, hoffers⟩ := settleAll_offers (Except.ok.inj h)
    exact map_tokenHash_of_offer hoffers
  | expireStale team now =>
    obtain ⟨f, rfl, hoffers⟩ := settleAll_offers (Except.ok.inj h)
    exact map_tokenHash_of_offer hoffers
  | _ =>
    cases h
    rfl

end Tables

/-! ## Alike stores -/

/-- Two results agree: both fail alike, or both succeed with related replies. -/
inductive Agree {ε α : Type} (R : α → α → Prop) : Except ε α → Except ε α → Prop
  | ok {a b : α} (h : R a b) : Agree R (.ok a) (.ok b)
  | error (e : ε) : Agree R (.error e) (.error e)

theorem Agree.imp {ε α : Type} {R S : α → α → Prop} {r r' : Except ε α} (h : Agree R r r')
    (himp : ∀ a b, R a b → S a b) : Agree S r r' := by
  cases h with
  | ok hab => exact .ok (himp _ _ hab)
  | error e => exact .error e

namespace Tables

/-- The stores are equal but for their digests, and these correspond. -/
structure Alike (K : String → String → Prop) (s t : Tables) : Prop where
  concealed : s.conceal = t.conceal
  digests : List.Forall₂ K s.digests t.digests
  keyed : s.Keyed ∧ t.Keyed

variable {K : String → String → Prop} {s t : Tables}

/-- Calls that mention no digest are answered alike. -/
theorem Alike.perform (h : s.Alike K t) {α : Type} {call : StoreCall α}
    (hblind : call.isBlind = true) :
    Agree (fun x y => call.conceal x.1 = call.conceal y.1 ∧ x.2.Alike K y.2)
      (s.perform call) (t.perform call) := by
  have hsame : (s.perform call).map (Prod.map call.conceal conceal) =
      (t.perform call).map (Prod.map call.conceal conceal) := by
    rw [← s.perform_conceal hblind, h.concealed, t.perform_conceal hblind]
  cases hs : s.perform call with
  | error e =>
    cases ht : t.perform call with
    | error e' =>
      rw [hs, ht] at hsame
      cases hsame
      exact .error e
    | ok y =>
      rw [hs, ht] at hsame
      cases hsame
  | ok x =>
    cases ht : t.perform call with
    | error e =>
      rw [hs, ht] at hsame
      cases hsame
    | ok y =>
      rw [hs, ht] at hsame
      have hpair := Prod.ext_iff.mp (Except.ok.inj hsame)
      refine .ok ⟨hpair.1, ⟨hpair.2, ?_, ?_⟩⟩
      · rw [perform_digests hblind hs h.keyed.1, perform_digests hblind ht h.keyed.2]
        exact h.digests
      · exact ⟨perform_keyed hs h.keyed.1, perform_keyed ht h.keyed.2⟩

/-- A new invitation shows without its digest among the others. -/
theorem conceal_append (s : Tables) (invitation : Invitation) (last : Int) :
    { s with invitations := s.invitations ++ [invitation], lastInvitationId := last }.conceal =
      { s.conceal with
        invitations := s.conceal.invitations ++ [invitation.conceal]
        lastInvitationId := last } := by
  simp only [conceal, List.map_append, List.map_cons, List.map_nil]

/-- Of corresponding lists, corresponding digests find the same invitation. -/
theorem find?_digest (hK : Relator.BiUnique K) {d d' : String} (hd : K d d')
    {l l' : List Invitation} (hconcealed : l.map (·.conceal) = l'.map (·.conceal))
    (hdigests : List.Forall₂ K (l.map (·.tokenHash)) (l'.map (·.tokenHash))) :
    (l.find? fun i => i.tokenHash = d).map (·.conceal) =
      (l'.find? fun i => i.tokenHash = d').map (·.conceal) := by
  induction l generalizing l' with
  | nil =>
    cases l' with
    | nil => rfl
    | cons j rest' => cases hconcealed
  | cons i rest ih =>
    cases l' with
    | nil => cases hconcealed
    | cons j rest' =>
      simp only [List.map_cons, List.cons.injEq, List.forall₂_cons] at hconcealed hdigests
      have hiff : i.tokenHash = d ↔ j.tokenHash = d' := Relator.rel_eq hK hdigests.1 hd
      by_cases hi : i.tokenHash = d
      · have hj := hiff.mp hi
        simp only [List.find?_cons, hi, hj, decide_true, Option.map_some, hconcealed.1]
      · have hj : ¬ j.tokenHash = d' := fun hj => hi (hiff.mpr hj)
        simp only [List.find?_cons, hi, hj, decide_false]
        exact ih hconcealed.2 hdigests.2

theorem Alike.findInvitationByToken (h : s.Alike K t) (hK : Relator.BiUnique K) {d d' : String}
    (hd : K d d') : (s.findInvitationByToken d).map (·.conceal) =
      (t.findInvitationByToken d').map (·.conceal) :=
  find?_digest hK hd (congrArg Tables.invitations h.concealed) h.digests

/-- An invitation under corresponding digests is stored alike. -/
theorem Alike.createInvitation (h : s.Alike K t) (hK : Relator.BiUnique K) {d d' : String}
    (hd : K d d') (draft : InvitationDraft) :
    Agree (fun x y : Invitation × Tables => x.1.conceal = y.1.conceal ∧ x.2.Alike K y.2)
      (s.createInvitation { draft with tokenHash := d })
      (t.createInvitation { draft with tokenHash := d' }) := by
  have hhash := congrArg Option.isSome (h.findInvitationByToken hK hd)
  have hpending := congrArg (fun u : Tables =>
    (u.findPendingInvitation draft.teamId draft.email).isSome) h.concealed
  have hlast : s.lastInvitationId = t.lastInvitationId :=
    (congrArg Tables.lastInvitationId h.concealed :)
  simp only [conceal_findPendingInvitation, Option.isSome_map] at hhash hpending
  cases hknown : (s.findInvitationByToken d).isSome with
  | true =>
    simp only [Tables.createInvitation, ← hhash, hknown, if_true]
    exact .error _
  | false =>
    cases hwaiting : (s.findPendingInvitation draft.teamId draft.email).isSome with
    | true =>
      simp only [Tables.createInvitation, ← hhash, ← hpending, hknown, hwaiting, if_true]
      exact .error _
    | false =>
      have hs := createInvitation_new { draft with tokenHash := d } hknown hwaiting
      have ht := createInvitation_new { draft with tokenHash := d' } (hhash ▸ hknown)
        (hpending ▸ hwaiting)
      rw [hs, ht]
      refine .ok ⟨?_, ⟨?_, ?_, createInvitation_keyed hs h.keyed.1,
        createInvitation_keyed ht h.keyed.2⟩⟩
      · rw [hlast]
        rfl
      · simp only [conceal_append, h.concealed, hlast]
        rfl
      · simp only [Tables.digests, List.map_append]
        exact List.rel_append h.digests (.cons hd .nil)

end Tables

end Roster
