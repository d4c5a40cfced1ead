import Roster.Proofs.Database.Mirror

/-!
# Sweeps and listings by text

A database compares the texts of instants, so what it sweeps and how it
arranges a listing follow the order of texts. This is settled here for any
rows, with the condition under which the order of time gives the same.

* `Database.sweep` — a sweep of pending invitations by any notion of being due;
  `Database.sweep_of` says that by time it is the sweep of the tables;
* `Database.ByText` — all of some rows, newest first by text;
  `Database.mergeSort_newer` says that sorting arranges them so;
* `Database.sweeps_and_lists_by_text` — every sweep and every listing;
* `Database.far_expiry_swept` — an invitation is swept that expires in 12017.
-/

namespace Roster

namespace Database

/-! ## Sweeps -/

/-- The pending rows of a team, or of all, that are due become expired and are counted. The
rest of the database stays. -/
def sweep (db : Database) (team : Option Int) (due : Instant → Prop) [DecidablePred due] :
    Outcome Database Nat :=
  let moves := fun i : InvitationRow => i.isPending && (ofTeam team i && decide (due i.expiresAt))
  ⟨.ok (db.invitations.countP moves), [],
    { db with
      invitations := db.invitations.map fun i =>
        if moves i then { i with status := InvitationStatus.expired.name } else i }⟩

section

variable {db : Database} {team : Option Int} {due due' : Instant → Prop} [DecidablePred due]
  [DecidablePred due']

theorem expired_ne {i : InvitationRow} (h : i.isPending = true) :
    ({ i with status := InvitationStatus.expired.name } : InvitationRow) ≠ i := by
  intro heq
  have hstatus : i.status = InvitationStatus.pending.name := of_decide_eq_true h
  have hnames : InvitationStatus.expired.name ≠ InvitationStatus.pending.name := by decide
  exact hnames ((congrArg InvitationRow.status heq).trans hstatus)

/-- Two sweeps are one if and only if they find the same pending rows due. -/
theorem sweep_eq_iff : db.sweep team due = db.sweep team due' ↔
    ∀ i ∈ db.invitations, i.isPending → ofTeam team i → (due i.expiresAt ↔ due' i.expiresAt) := by
  constructor
  · intro h i hi hpending hteam
    have hrows := congrArg (fun outcome => outcome.store.invitations) h
    have hrow := List.map_inj_left.mp hrows i hi
    simp only [hpending, hteam, Bool.true_and, decide_eq_true_eq] at hrow
    by_cases hdue : due i.expiresAt
    · by_cases hdue' : due' i.expiresAt
      · exact iff_of_true hdue hdue'
      · rw [if_pos hdue, if_neg hdue'] at hrow
        exact absurd hrow (expired_ne hpending)
    · by_cases hdue' : due' i.expiresAt
      · rw [if_neg hdue, if_pos hdue'] at hrow
        exact absurd hrow.symm (expired_ne hpending)
      · exact iff_of_false hdue hdue'
  · intro h
    have hmoves : ∀ i ∈ db.invitations,
        (i.isPending && (ofTeam team i && decide (due i.expiresAt))) =
          (i.isPending && (ofTeam team i && decide (due' i.expiresAt))) := by
      intro i hi
      by_cases hlive : i.isPending = true ∧ ofTeam team i = true
      · rw [decide_eq_decide.mpr (h i hi hlive.1 hlive.2)]
      · have hdead := Bool.eq_false_iff.mpr (mt Bool.and_eq_true_iff.mp hlive)
        rw [← Bool.and_assoc, ← Bool.and_assoc, hdead, Bool.false_and, Bool.false_and]
    have hcount := List.countP_congr fun i hi => Bool.eq_iff_iff.mp (hmoves i hi)
    have hrows := List.map_congr_left fun i hi => congrArg
      (fun moves : Bool =>
        if moves then { i with status := InvitationStatus.expired.name } else i) (hmoves i hi)
    simp only [sweep, hcount, hrows]

theorem expireStale_eq (now : Instant) :
    db.perform (.expireStale team now) = db.sweep team (·.WrittenBefore now) := by
  have hbefore : ∀ i : InvitationRow,
      textBefore i.expiresAt now = decide (i.expiresAt.WrittenBefore now) :=
    fun i => decide_eq_decide.mpr Instant.storedText_lt_iff_writtenBefore
  simp only [perform, settleAll, done, sweep, hbefore]

/-- By time, the sweep of a mirror is the sweep of the tables. -/
theorem sweep_of (s : Tables) (team : Option Int) (now : Instant) :
    (of s).sweep team (· < now) = (Store.perform (.expireStale team now) s).mirror :=
  settleAll_of (fun _ _ => rfl) .expired

end

/-! ## Listings -/

/-- Newest first by a relation of instants, then the later id. -/
def Newer (before : Instant → Instant → Prop) (a b : Instant) (i j : Int) : Prop :=
  before b a ∨ a = b ∧ j ≤ i

theorem newer_iff {a b : Instant} {i j : Int} :
    newer a b i j = true ↔ Newer Instant.WrittenBefore a b i j := by
  simp only [newer, textBefore, Newer, Bool.or_eq_true, Bool.and_eq_true, decide_eq_true_eq,
    Instant.storedText_lt_iff_writtenBefore, Instant.storedText_inj]

theorem newer_trans {a b c : Instant} {i j k : Int} (hab : newer a b i j = true)
    (hbc : newer b c j k = true) : newer a c i k = true := by
  simp only [newer, textBefore, Bool.or_eq_true, Bool.and_eq_true, decide_eq_true_eq] at *
  rcases hab with hab | ⟨hab, hij⟩
  · rcases hbc with hbc | ⟨hbc, -⟩
    · exact .inl (List.lt_trans hbc hab)
    · exact .inl (hbc ▸ hab)
  · rcases hbc with hbc | ⟨hbc, hjk⟩
    · exact .inl (hab ▸ hbc)
    · exact .inr ⟨hab.trans hbc, Int.le_trans hjk hij⟩

theorem newer_total (a b : Instant) (i j : Int) : (newer a b i j || newer b a j i) = true := by
  simp only [newer, textBefore, Bool.or_eq_true, Bool.and_eq_true, decide_eq_true_eq]
  by_cases hab : a.storedText < b.storedText
  · exact .inr (.inl hab)
  · by_cases hba : b.storedText < a.storedText
    · exact .inl (.inl hba)
    · have heq := text_eq_of_not_lt hab hba
      rcases Int.le_total j i with hle | hle
      · exact .inl (.inr ⟨heq, hle⟩)
      · exact .inr (.inr ⟨heq.symm, hle⟩)

section

variable {ρ : Type} (created : ρ → Instant) (key : ρ → Int)

/-- All of the rows, arranged newest first by text. They are newest first in time if and only
if the texts of all their years are in the order of the years. -/
structure ByText (rows arranged : List ρ) : Prop where
  perm : arranged.Perm rows
  newest : arranged.Pairwise fun a b =>
    Newer Instant.WrittenBefore (created a) (created b) (key a) (key b)
  newest_iff :
    (arranged.Pairwise fun a b => Newer (· < ·) (created a) (created b) (key a) (key b)) ↔
      ∀ a ∈ rows, ∀ b ∈ rows, (created a).Aligned (created b)

variable {created key}

/-- Instants that are in order by text and by time have aligned years. -/
theorem aligned_of_newer {a b : Instant} {i j : Int}
    (htext : Newer Instant.WrittenBefore a b i j) (htime : Newer (· < ·) a b i j) :
    a.Aligned b := by
  rcases htext with htext | ⟨rfl, -⟩
  · rcases htime with htime | ⟨rfl, -⟩
    · exact (Instant.writtenBefore_iff_lt.mp (iff_of_true htext htime)).symm
    · exact a.aligned_refl
  · exact a.aligned_refl

theorem mergeSort_newer (rows : List ρ) : ByText created key rows
    (rows.mergeSort fun a b => newer (created a) (created b) (key a) (key b)) := by
  have hperm := List.mergeSort_perm rows fun a b => newer (created a) (created b) (key a) (key b)
  have hsorted : (rows.mergeSort fun a b => newer (created a) (created b) (key a) (key b)).Pairwise
      fun a b => newer (created a) (created b) (key a) (key b) = true := by
    refine List.pairwise_mergeSort ?_ ?_ rows
    · exact fun _ _ _ => newer_trans
    · exact fun a b => newer_total (created a) (created b) (key a) (key b)
  have hnewest := hsorted.imp newer_iff.mp
  refine ⟨hperm, hnewest, ?_⟩
  constructor
  · -- any two rows stand in one order or in the other
    intro htime a ha b hb
    have hpairs := (hnewest.and htime).imp fun h => aligned_of_newer h.1 h.2
    exact hpairs.forall_of_forall_of_flip (fun c _ => (created c).aligned_refl)
      (hpairs.imp Instant.Aligned.symm) (hperm.mem_iff.mpr ha) (hperm.mem_iff.mpr hb)
  · intro haligned
    refine hnewest.imp_of_mem ?_
    intro a b ha hb h
    have hpair := haligned b (hperm.mem_iff.mp hb) a (hperm.mem_iff.mp ha)
    exact h.imp_left (Instant.writtenBefore_iff_lt.mpr hpair).mp

end

/-! ## All sweeps and listings -/

/-- A sweep moves what is due by the order of texts, which is what is due by time, and what the
tables move, if and only if the year of every pending row that it looks at is aligned with the
present one: in a year of four digits, if no expiry lies past the year 9999. A listing is a
page of one arrangement of its rows, newest first by text. -/
theorem sweeps_and_lists_by_text (db : Database) :
    (∀ team now,
      db.perform (.expireStale team now) = db.sweep team (·.WrittenBefore now) ∧
      (db.perform (.expireStale team now) = db.sweep team (· < now) ↔
        ∀ i ∈ db.invitations, i.isPending → ofTeam team i → i.expiresAt.Aligned now) ∧
      (now.InFourDigits → (db.perform (.expireStale team now) = db.sweep team (· < now) ↔
        ∀ i ∈ db.invitations, i.isPending → ofTeam team i → i.expiresAt.date.year ≤ 9999)) ∧
      ∀ s, db = of s →
        db.sweep team (· < now) = (Store.perform (.expireStale team now) s).mirror) ∧
    (∀ user, ∃ arranged,
      ByText TeamRow.createdAt TeamRow.id
        (db.teams.filter fun t => t.isActive && db.members.any (·.isOf t.id user)) arranged ∧
      ∀ page, db.perform (.listTeamsOf user page) =
        ⟨readAll TeamRow.read (page.slice arranged), [], db⟩) ∧
    (∀ team status, ∃ arranged,
      ByText InvitationRow.createdAt InvitationRow.id
        (db.invitations.filter fun i => i.teamId = team && status.all (i.status = ·.name))
        arranged ∧
      ∀ page, db.perform (.listInvitationsOf team status page) =
        ⟨readAll InvitationRow.read (page.slice arranged), [], db⟩) ∧
    ∀ email status, ∃ arranged,
      ByText InvitationRow.createdAt InvitationRow.id
        (db.invitations.filter fun i => i.email = email && status.all (i.status = ·.name))
        arranged ∧
      ∀ page, db.perform (.listInvitationsTo email status page) =
        ⟨readAll InvitationRow.read (page.slice arranged), [], db⟩ := by
  refine ⟨?_, ?_, ?_, ?_⟩
  · intro team now
    have haligned : db.perform (.expireStale team now) = db.sweep team (· < now) ↔
        ∀ i ∈ db.invitations, i.isPending → ofTeam team i → i.expiresAt.Aligned now := by
      rw [expireStale_eq, sweep_eq_iff]
      simp only [Instant.writtenBefore_iff_lt]
    refine ⟨expireStale_eq now, haligned, ?_, ?_⟩
    · intro hnow
      simp only [haligned, Instant.aligned_iff_of_inFourDigits hnow]
    · rintro s rfl
      exact sweep_of s team now
  · exact fun user => ⟨_, mergeSort_newer _, fun page => rfl⟩
  · exact fun team status => ⟨_, mergeSort_newer _, fun page => rfl⟩
  · exact fun email status => ⟨_, mergeSort_newer _, fun page => rfl⟩

/-! ## An expiry past the year 9999 -/

/-- 2023-11-14T22:13:20Z. -/
def presentDay : Instant := ⟨1700000000, 0, by decide, by decide⟩

/-- An invitation for ten thousand years. -/
def farDraft : InvitationDraft :=
  { teamId := 1
    invitedBy := 1
    email := "u@b.co"
    inviteeId := none
    role := .member
    tokenHash := "ea86"
    expiresAt := ⟨317060000000, 0, by decide, by decide⟩
    createdAt := presentDay }

/-- A database in which a team has sent that invitation. -/
def withFarInvitation : Database :=
  let team : TeamDraft :=
    { ownerId := 1
      name := "My Team"
      slug := "my-team"
      description := none
      visibility := .membersOnly
      memberLimit := 5
      createdAt := presentDay }
  ((empty.createTeam team).store.createInvitation farDraft).store

/-- The invitation that expires in the year 12017 is swept as if that had passed: its expiry
is written with a plus sign, which comes before the digits of the present year. -/
theorem far_expiry_swept :
    presentDay < farDraft.expiresAt ∧
    withFarInvitation.invitations = [.of (farDraft.invitation 1)] ∧
    (withFarInvitation.perform (.expireStale (some 1) presentDay)).result = .ok 1 ∧
    (withFarInvitation.perform (.expireStale (some 1) presentDay)).store.invitations =
      [.of { farDraft.invitation 1 with status := .expired }] ∧
    (withFarInvitation.sweep (some 1) (· < presentDay)).result = .ok 0 := by
  decide +kernel

/-- The present year has four digits and the expiry is past 9999, so this is not the sweep by
time. -/
theorem sweeps_and_lists_by_text_of_far :
    presentDay.InFourDigits ∧
    withFarInvitation.perform (.expireStale (some 1) presentDay) ≠
      withFarInvitation.sweep (some 1) (· < presentDay) := by
  have hnow : presentDay.InFourDigits := by decide +kernel
  refine ⟨hnow, ?_⟩
  intro heq
  have hyears := (((sweeps_and_lists_by_text withFarInvitation).1 (some 1) presentDay).2.2.1
    hnow).mp heq (.of (farDraft.invitation 1))
  exact absurd hyears (by decide +kernel)

end Database

end Roster
