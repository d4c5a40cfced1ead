import Mathlib.Data.List.Pairwise
import Roster.Proofs.Tables.Unique

/-!
# Rows in the order of their keys

Teams and invitations stand in the order of their ids, members in the order of team and user.

* `Tables.Arranged` — the rows of every table are in order; every call keeps it
  (`Tables.perform_arranged`);
* `eq_of_filter_eq` — rows in order are known by those of each key.
-/

namespace Roster

/-! ## Lists in order -/

section

variable {α : Type} {before : α → α → Bool} {entry : α} {l : List α} {p : α → Bool}

/-- An entry that comes before all others becomes the first. -/
theorem insertBefore_first (h : ∀ a ∈ l, before entry a = true) :
    insertBefore before entry l = entry :: l := by
  cases l with
  | nil => rfl
  | cons head tail => rw [insertBefore, if_pos (h head List.mem_cons_self)]

/-- An entry of another kind does not show. -/
theorem filter_insertBefore_other (h : p entry = false) (l : List α) :
    (insertBefore before entry l).filter p = l.filter p := by
  induction l with
  | nil => simp [insertBefore, h]
  | cons head tail ih =>
    rw [insertBefore]
    split
    · rw [List.filter_cons_of_neg (by simp [h])]
    · simp only [List.filter_cons, ih]

/-- In a list that is in order, an entry finds its place among those of its kind. -/
theorem filter_insertBefore (h : p entry = true)
    (htrans : ∀ a b, before entry a = true → before a b = true → before entry b = true)
    (hl : l.Pairwise fun a b => before a b = true) :
    (insertBefore before entry l).filter p = insertBefore before entry (l.filter p) := by
  induction l with
  | nil => simp [insertBefore, h]
  | cons head tail ih =>
    obtain ⟨hhead, htail⟩ := List.pairwise_cons.mp hl
    rw [insertBefore]
    by_cases hfirst : before entry head = true
    · rw [if_pos hfirst, List.filter_cons_of_pos h, insertBefore_first]
      intro a ha
      rcases List.mem_cons.mp (List.mem_of_mem_filter ha) with rfl | ha
      · exact hfirst
      · exact htrans head a hfirst (hhead a ha)
    · rw [if_neg hfirst]
      by_cases hp : p head = true
      · rw [List.filter_cons_of_pos hp, List.filter_cons_of_pos hp, insertBefore, if_neg hfirst,
          ih htail]
      · rw [List.filter_cons_of_neg hp, List.filter_cons_of_neg hp, ih htail]

/-- An entry with a key of its own finds its place in a list that is in order. -/
theorem pairwise_insertBefore
    (htrans : ∀ a b c, before a b = true → before b c = true → before a c = true)
    (htotal : ∀ a ∈ l, before entry a = false → before a entry = true)
    (hl : l.Pairwise fun a b => before a b = true) :
    (insertBefore before entry l).Pairwise fun a b => before a b = true := by
  induction l with
  | nil => exact List.pairwise_singleton _ _
  | cons head tail ih =>
    obtain ⟨hhead, htail⟩ := List.pairwise_cons.mp hl
    rw [insertBefore]
    by_cases hfirst : before entry head = true
    · rw [if_pos hfirst]
      refine List.pairwise_cons.mpr ⟨?_, hl⟩
      intro a ha
      rcases List.mem_cons.mp ha with rfl | ha
      · exact hfirst
      · exact htrans entry head a hfirst (hhead a ha)
    · rw [if_neg hfirst]
      refine List.pairwise_cons.mpr ⟨?_, ih (fun a ha => htotal a (List.mem_cons_of_mem _ ha)) htail⟩
      intro a ha
      rcases List.mem_cons.mp ((Tables.insertBefore_perm before entry tail).mem_iff.mp ha) with rfl | ha
      · exact htotal head List.mem_cons_self (Bool.eq_false_iff.mpr hfirst)
      · exact hhead a ha

/-- Two lists in order are equal if they agree on the rows of every key. -/
theorem eq_of_filter_eq {key : α → Int} {r : α → α → Prop} {l' : List α}
    (hasymm : ∀ a b, r a b → ¬ r b a) (hl : l.Pairwise r) (hl' : l'.Pairwise r)
    (h : ∀ k, l.filter (fun a => key a = k) = l'.filter (fun a => key a = k)) : l = l' := by
  classical
  have hperm : l.Perm l' := by
    refine List.perm_iff_count.mpr ?_
    intro a
    have hcount : ∀ l : List α, l.count a = (l.filter fun b => key b = key a).count a :=
      fun l => (List.count_filter (by simp)).symm
    rw [hcount l, hcount l', h]
  exact hperm.eq_of_pairwise (fun a b _ _ hab hba => absurd hba (hasymm a b hab)) hl hl'

end

/-! ## Arranged tables -/

/-- The key of a member comes before that of another. -/
def Member.Precedes (a b : Member) : Prop :=
  keyBefore a.teamId a.userId b.teamId b.userId = true

theorem Member.precedes_iff {a b : Member} :
    a.Precedes b ↔ a.teamId < b.teamId ∨ a.teamId = b.teamId ∧ a.userId < b.userId := by
  simp [Precedes, keyBefore]

namespace Tables

/-- The rows of every table are in the order of their keys. -/
structure Arranged (s : Tables) : Prop where
  teams : s.teams.Pairwise fun a b => a.id < b.id
  members : s.members.Pairwise Member.Precedes
  invitations : s.invitations.Pairwise fun a b => a.id < b.id

theorem empty_arranged : empty.Arranged :=
  ⟨List.Pairwise.nil, List.Pairwise.nil, List.Pairwise.nil⟩

variable {s s' : Tables}

/-- Rows that are changed in their places stay in order. -/
theorem pairwise_map_key {α κ : Type} (key : α → κ) (r : κ → κ → Prop) {f : α → α} {l : List α}
    (hl : l.Pairwise fun a b => r (key a) (key b)) (hkey : ∀ a ∈ l, key (f a) = key a) :
    (l.map f).Pairwise fun a b => r (key a) (key b) := by
  rw [List.pairwise_map]
  refine hl.imp_of_mem ?_
  intro a b ha hb hab
  rw [hkey a ha, hkey b hb]
  exact hab

/-- A row with the next id comes last. -/
theorem pairwise_append_next {α : Type} {key : α → Int} {l : List α} {last : Int} (a : α)
    (hl : l.Pairwise fun a b => key a < key b) (hle : ∀ b ∈ l, key b ≤ last)
    (hkey : key a = last + 1) : (l ++ [a]).Pairwise fun a b => key a < key b := by
  refine List.pairwise_append.mpr ⟨hl, List.pairwise_singleton _ _, ?_⟩
  intro b hb c hc
  obtain rfl := List.mem_singleton.mp hc
  have hle := hle b hb
  omega

theorem addMember_arranged {draft : MemberDraft} {member : Member}
    (h : s.addMember draft = .ok (member, s')) (ha : s.Arranged) : s'.Arranged := by
  obtain ⟨hnew, rfl, -, -⟩ := addMember_ok h
  rw [addMember, hnew, if_neg Bool.false_ne_true] at h
  cases h
  refine ⟨ha.teams, ?_, ha.invitations⟩
  refine pairwise_insertBefore ?_ ?_ ha.members
  · intro a b c hab hbc
    have hab := Member.precedes_iff.mp hab
    have hbc := Member.precedes_iff.mp hbc
    refine Member.precedes_iff.mpr ?_
    omega
  · intro a hmem hafter
    have hkey : ¬(a.teamId = draft.teamId ∧ a.userId = draft.userId) := by
      intro hsame
      exact Bool.eq_false_iff.mp hnew (isMember_iff.mpr ⟨a, hmem, hsame⟩)
    have hafter := mt Member.precedes_iff.mpr (Bool.eq_false_iff.mp hafter)
    refine Member.precedes_iff.mpr ?_
    simp only [MemberDraft.member] at hafter ⊢
    omega

/-- No call disturbs the order. -/
theorem perform_arranged {α : Type} {call : StoreCall α} {reply : α}
    (h : s.perform call = .ok (reply, s')) (hk : s.Keyed) (ha : s.Arranged) : s'.Arranged := by
  -- teams and invitations are changed in their places, or come last
  have hteams : ∀ f : Team → Team, (∀ t ∈ s.teams, (f t).id = t.id) →
      (s.teams.map f).Pairwise fun a b => a.id < b.id :=
    fun f hid => pairwise_map_key Team.id (· < ·) ha.teams hid
  have hinvitations : ∀ f : Invitation → Invitation, (∀ i ∈ s.invitations, (f i).id = i.id) →
      (s.invitations.map f).Pairwise fun a b => a.id < b.id :=
    fun f hid => pairwise_map_key Invitation.id (· < ·) ha.invitations hid
  cases call with
  | createTeam draft =>
    obtain ⟨-, rfl, rfl⟩ := createTeam_ok h
    exact ⟨pairwise_append_next _ ha.teams hk.teams_le rfl, ha.members, ha.invitations⟩
  | updateTeam team =>
    obtain ⟨-, -, -, rfl⟩ := updateTeam_ok h
    refine ⟨hteams _ ?_, ha.members, ha.invitations⟩
    intro t _
    split
    · rename_i hid
      exact hid.symm
    · rfl
  | deleteTeam team now =>
    obtain ⟨-, rfl⟩ := deleteTeam_ok h
    refine ⟨hteams _ ?_, ha.members, ha.invitations⟩
    intro t _
    split <;> rfl
  | addMember draft => exact addMember_arranged h ha
  | setRole team user role now =>
    obtain ⟨member, hfound, rfl, rfl⟩ := setRole_ok h
    obtain ⟨-, hteam, huser⟩ := findMember_some hfound
    refine ⟨ha.teams, ?_, ha.invitations⟩
    refine pairwise_map_key (fun m : Member => (m.teamId, m.userId))
      (fun k l => keyBefore k.1 k.2 l.1 l.2 = true) ha.members ?_
    intro m _
    split
    · rename_i hof
      obtain ⟨hmteam, hmuser⟩ := Member.isOf_iff.mp hof
      rw [hteam, huser, hmteam, hmuser]
    · rfl
  | removeMember team user =>
    obtain ⟨-, rfl⟩ := removeMember_ok h
    exact ⟨ha.teams, ha.members.filter _, ha.invitations⟩
  | createInvitation draft =>
    obtain ⟨-, -, rfl, rfl⟩ := createInvitation_ok h
    exact ⟨ha.teams, ha.members, pairwise_append_next _ ha.invitations hk.invitations_le rfl⟩
  | settleInvitation id status now =>
    cases reply with
    | none => exact settleInvitation_none h ▸ ha
    | some settled =>
      obtain ⟨f, rfl, hoffer⟩ := settleInvitation_offers h hk
      refine ⟨ha.teams, ha.members, hinvitations f ?_⟩
      exact fun i hi => (Invitation.offer_eq (hoffer i hi)).1
  | revokePending team =>
    obtain ⟨f, rfl, hoffer⟩ := settleAll_offers (Except.ok.inj h)
    refine ⟨ha.teams, ha.members, hinvitations f ?_⟩
    exact fun i hi => (Invitation.offer_eq (hoffer i hi)).1
  | expireStale team now =>
    obtain ⟨f, rfl, hoffer⟩ := settleAll_offers (Except.ok.inj h)
    refine ⟨ha.teams, ha.members, hinvitations f ?_⟩
    exact fun i hi => (Invitation.offer_eq (hoffer i hi)).1
  | _ =>
    cases h
    exact ha

end Tables

end Roster
