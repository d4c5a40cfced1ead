import Roster.Proofs.Usage
import Roster.Store.Database.Basic

/-!
# What an update of a team writes

An update takes any record of a team. It is about the fields that may change: name, slug,
description, visibility, limit and date of the update.

* `Team.withFieldsOf`, `TeamRow.withColumnsOf` — a team, and its row, with these fields of a record;
* `Replaced` — one row in the place of another, and `replaced_of_key` for rows with keys;
* `Database.Reached`, `Database.Reached.teamIds` — the databases that statements can make, and that
  no two teams of one share an id;
* `Database.UpdateVerdict` — a database writes just these columns;
* `Tables.UpdateVerdict` — the tables in memory take over the record as it is, with its owner, its
  status and its date of creation, and `memory_takes_whole_record` is a record for which it matters;
* `team_updates` — each verdict holds wherever its store can come to.
-/

namespace Roster

/-- The team with the fields of a record that may change. -/
def Team.withFieldsOf (team record : Team) : Team :=
  { team with
    name := record.name
    slug := record.slug
    description := record.description
    visibility := record.visibility
    memberLimit := record.memberLimit
    updatedAt := record.updatedAt }

/-- The row with the columns of a record that may change. -/
def TeamRow.withColumnsOf (row : TeamRow) (record : Team) : TeamRow :=
  { row with
    name := record.name
    slug := record.slug
    description := record.description
    visibility := record.visibility.name
    memberLimit := record.memberLimit.toNat
    updatedAt := record.updatedAt }

/-- A record is the team with its own fields if and only if it has the same fixed ones. -/
theorem Team.eq_withFieldsOf_iff {team record : Team} (hid : team.id = record.id) :
    record = team.withFieldsOf record ↔
      record.ownerId = team.ownerId ∧ record.status = team.status ∧
        record.createdAt = team.createdAt := by
  cases team
  cases record
  cases hid
  simp only [withFieldsOf, Team.mk.injEq, true_and, and_true]

/-! ## One row for another -/

section

variable {ρ : Type}

/-- A row stands in the place of another; the rows in front and behind are the same. -/
def Replaced (rows rows' : List ρ) (row row' : ρ) : Prop :=
  ∃ before after, rows = before ++ row :: after ∧ rows' = before ++ row' :: after

/-- Where no two rows share a key, writing a row under its key replaces one row. -/
theorem replaced_of_key {key : ρ → Int} {rows : List ρ} {row row' : ρ}
    (hkeys : (rows.map key).Nodup) (hrow : row ∈ rows) (hkey : key row = key row') :
    Replaced rows (rows.map fun t => if key t = key row' then row' else t) row row' := by
  obtain ⟨before, after, rfl, hbefore, hafter⟩ := Tables.exists_between hkeys hrow
  rw [hkey] at hbefore hafter
  have hsame : ∀ part : List ρ, (∀ t ∈ part, key t ≠ key row') →
      (part.map fun t => if key t = key row' then row' else t) = part := by
    intro part hpart
    calc
      _ = part.map id := List.map_congr_left fun t ht => if_neg (hpart t ht)
      _ = part := List.map_id part
  refine ⟨before, after, rfl, ?_⟩
  rw [List.map_append, List.map_cons, if_pos hkey, hsame before hbefore, hsame after hafter]

end

/-! ## Ids of teams in a database -/

namespace Database

variable {db db' : Database}

/-- What statements can make of the schema without rows. -/
inductive Reached : Database → Prop
  | empty : Reached empty
  | call {db : Database} {α : Type} (call : StoreCall α) (h : Reached db) :
      Reached (db.perform call).store
  | insertUser {db : Database} (email name : String) (h : Reached db) :
      Reached (db.insertUser email name).store
  | overwrite {db db' : Database} {write : ColumnWrite} {count : Nat} (h : Reached db)
      (written : db.overwrite write = .ok (count, db')) : Reached db'

/-- No two teams share an id, and no id lies above the last one given out. -/
structure TeamIds (db : Database) : Prop where
  distinct : (db.teams.map (·.id)).Nodup
  le_last : ∀ t ∈ db.teams, t.id ≤ db.lastTeamId

theorem TeamIds.of_eq (h : db.TeamIds) (hids : db'.teams.map (·.id) = db.teams.map (·.id))
    (hlast : db'.lastTeamId = db.lastTeamId) : db'.TeamIds := by
  have hle : ∀ id ∈ db.teams.map (·.id), id ≤ db.lastTeamId := List.forall_mem_map.mpr h.le_last
  rw [← hids, ← hlast] at hle
  exact ⟨hids ▸ h.distinct, fun t ht => hle t.id (List.mem_map_of_mem ht)⟩

/-- Writing other columns of teams keeps their ids. -/
theorem TeamIds.map (h : db.TeamIds) {change : TeamRow → TeamRow}
    (hchange : ∀ t, (change t).id = t.id) :
    TeamIds { db with teams := db.teams.map change } := by
  refine h.of_eq ?_ rfl
  rw [List.map_map]
  exact List.map_congr_left fun t _ => hchange t

theorem TeamIds.putTeam (h : db.TeamIds) (row : TeamRow) : (db.putTeam row).TeamIds := by
  refine h.map fun t => ?_
  split
  · rename_i hid
    exact hid.symm
  · rfl

/-- A new id lies above all others. -/
theorem TeamIds.append (h : db.TeamIds) {row : TeamRow} (hrow : row.id = db.lastTeamId + 1) :
    TeamIds { db with teams := db.teams ++ [row], lastTeamId := row.id } := by
  obtain ⟨hdistinct, hle⟩ := Tables.nodup_append_next row h.distinct h.le_last hrow
  exact ⟨hdistinct, fun t ht => Int.le_trans (hle t ht) (Int.le_of_eq hrow.symm)⟩

/-- Every call keeps the ids of teams. -/
theorem TeamIds.perform (h : db.TeamIds) {α : Type} (call : StoreCall α) :
    (db.perform call).store.TeamIds := by
  cases call with
  | createTeam draft =>
    show (db.createTeam draft).store.TeamIds
    unfold Database.createTeam
    split
    · exact h
    split
    · exact h
    · exact h.append rfl
  | updateTeam team =>
    show (db.updateTeam team).store.TeamIds
    unfold Database.updateTeam
    split
    · exact h
    · split
      · exact h
      split
      · exact h
      · exact h.putTeam _
  | deleteTeam team now =>
    show (db.deleteTeam team now).store.TeamIds
    unfold Database.deleteTeam
    split
    · exact h
    · exact h.putTeam _
  | addMember draft =>
    show (db.addMember draft).store.TeamIds
    unfold Database.addMember
    repeat' split
    all_goals exact h.of_eq rfl rfl
  | setRole team user role now =>
    show (db.setRole team user role now).store.TeamIds
    unfold Database.setRole
    split
    all_goals exact h.of_eq rfl rfl
  | removeMember team user =>
    show (db.removeMember team user).store.TeamIds
    unfold Database.removeMember
    split
    all_goals exact h.of_eq rfl rfl
  | createInvitation draft =>
    show (db.createInvitation draft).store.TeamIds
    unfold Database.createInvitation
    repeat' split
    all_goals exact h.of_eq rfl rfl
  | settleInvitation invitation status now =>
    show (db.settleInvitation invitation status now).store.TeamIds
    unfold Database.settleInvitation
    repeat' split
    all_goals exact h.of_eq rfl rfl
  | _ => exact h.of_eq rfl rfl

/-- A direct write is of another column. -/
theorem TeamIds.overwrite (h : db.TeamIds) {write : ColumnWrite} {count : Nat}
    (hwritten : db.overwrite write = .ok (count, db')) : db'.TeamIds := by
  cases write with
  | memberRole | invitationRole =>
    cases hwritten
    exact h.of_eq rfl rfl
  | invitationStatus =>
    simp only [Database.overwrite] at hwritten
    split at hwritten
    · cases hwritten
    · cases hwritten
      exact h.of_eq rfl rfl
  | teamVisibility team value =>
    cases hwritten
    refine h.map fun t => ?_
    split <;> rfl
  | teamStatus | teamMemberLimit =>
    simp only [Database.overwrite] at hwritten
    split at hwritten
    · cases hwritten
    · cases hwritten
      refine h.map fun t => ?_
      split <;> rfl

/-- Whatever statements are made, no two teams share an id. -/
theorem Reached.teamIds (h : db.Reached) : db.TeamIds := by
  induction h with
  | empty => exact ⟨List.nodup_nil, fun _ ht => absurd ht List.not_mem_nil⟩
  | call call _ ih => exact ih.perform call
  | insertUser email name _ ih =>
    simp only [Database.insertUser]
    split
    all_goals exact ih.of_eq rfl rfl
  | overwrite _ written ih => exact ih.overwrite written

/-! ## Updates in a database -/

/-- What an update with any record comes to in a database: it fails and changes nothing, or the
columns that may change are written in the row of the active team, and what is returned is that
row. -/
def UpdateVerdict (db : Database) (record : Team) : Prop :=
  match db.activeTeam record.id with
  | none => db.perform (.updateTeam record) = ⟨.error (.teamNotFound record.id), [], db⟩
  | some row =>
    if record.memberLimit = 0 then
      db.perform (.updateTeam record) =
        ⟨.error Constraint.positiveLimit.error, [Constraint.positiveLimit.logLine "update_team"], db⟩
    else if db.slugInUse row.ownerId record.slug (some record.id) then
      db.perform (.updateTeam record) = ⟨.error (.slugTaken record.slug), [], db⟩
    else
      ∃ team teams, TeamRow.of team = row.withColumnsOf record ∧
        Replaced db.teams teams row (row.withColumnsOf record) ∧
        db.perform (.updateTeam record) = ⟨.ok team, [], { db with teams }⟩

theorem TeamIds.updateVerdict (h : db.TeamIds) (record : Team) : db.UpdateVerdict record := by
  have hperform : db.perform (.updateTeam record) = db.updateTeam record := rfl
  unfold UpdateVerdict
  rw [hperform, Database.updateTeam]
  cases hfound : db.activeTeam record.id with
  | none => rfl
  | some row =>
    have hpred := List.find?_some hfound
    rw [Bool.and_eq_true, decide_eq_true_eq] at hpred
    obtain ⟨hid, hactive⟩ := hpred
    by_cases hlimit : record.memberLimit = 0
    · simp only [if_pos hlimit]
      rfl
    by_cases hslug : db.slugInUse row.ownerId record.slug (some record.id) = true
    · simp only [if_neg hlimit, if_pos hslug]
      rfl
    simp only [if_neg hlimit, if_neg hslug]
    -- an active row has a status that can be read, and the other columns are those of the record
    let team : Team :=
      { record with
        id := row.id
        ownerId := row.ownerId
        status := .active
        createdAt := row.createdAt }
    have hteam : TeamRow.of team = row.withColumnsOf record := by
      have hstatus : TeamStatus.active.name = row.status := (of_decide_eq_true hactive).symm
      simp only [TeamRow.of, TeamRow.withColumnsOf, team, hstatus]
    have hreplaced : Replaced db.teams (db.putTeam (row.withColumnsOf record)).teams row
        (row.withColumnsOf record) :=
      replaced_of_key h.distinct (List.mem_of_find?_eq_some hfound) rfl
    refine ⟨team, _, hteam, hreplaced, ?_⟩
    have hread : (row.withColumnsOf record).read = .ok team := by
      rw [← hteam]
      exact TeamRow.read_of team
    exact congrArg (fun result => Outcome.mk result [] (db.putTeam (row.withColumnsOf record))) hread

end Database

/-! ## Updates in memory -/

namespace Tables

/-- What an update with any record comes to in memory: it fails and changes nothing, or the record
takes the place of the active team. It keeps owner, status and date of creation if and only if the
record has these. -/
def UpdateVerdict (s : Tables) (record : Team) : Prop :=
  match s.findTeam record.id with
  | none =>
    Store.perform (.updateTeam record) s = ⟨.error (.teamNotFound record.id), [], s⟩
  | some stored =>
    if s.slugInUse record.ownerId record.slug (some record.id) then
      Store.perform (.updateTeam record) s = ⟨.error (.slugTaken record.slug), [], s⟩
    else
      ∃ teams, Replaced s.teams teams stored record ∧
        Store.perform (.updateTeam record) s = ⟨.ok record, [], { s with teams }⟩ ∧
        (record = stored.withFieldsOf record ↔
          record.ownerId = stored.ownerId ∧ record.status = stored.status ∧
            record.createdAt = stored.createdAt)

theorem Keyed.updateVerdict {s : Tables} (hk : s.Keyed) (record : Team) :
    s.UpdateVerdict record := by
  have hperform : s.perform (.updateTeam record) = s.updateTeam record := rfl
  unfold UpdateVerdict
  rw [perform_eq, hperform, Tables.updateTeam]
  cases hfound : s.findTeam record.id with
  | none => rfl
  | some stored =>
    obtain ⟨hmem, hid, -⟩ := findTeam_some hfound
    by_cases hslug : s.slugInUse record.ownerId record.slug (some record.id) = true
    · simp only [if_pos hslug]
      rfl
    simp only [if_neg hslug]
    exact ⟨_, replaced_of_key hk.teams hmem hid, rfl, Team.eq_withFieldsOf_iff hid⟩

end Tables

/-- However a store in memory was used, and whatever statements a database was given, an update
with any record comes to its verdict. -/
theorem team_updates (record : Team) :
    (∀ uses, ∀ s ∈ (Usage.start.afterAll uses).views, s.UpdateVerdict record) ∧
      ∀ db : Database, db.Reached → db.UpdateVerdict record := by
  constructor
  · intro uses s hs
    exact (Usage.views_regular uses hs).keyed.updateVerdict record
  · intro db hdb
    exact hdb.teamIds.updateVerdict record

/-! ## A record of somebody else -/

/-- A new team. -/
def newDraft : TeamDraft := ⟨7, "Core", "core", none, .everyone, 2, .epoch⟩

/-- A record under its id, with another owner, as deleted, and with another date of creation. -/
def foreignRecord : Team :=
  { id := 1
    ownerId := 9
    name := "Docs"
    slug := "docs"
    description := none
    visibility := .membersOnly
    memberLimit := 3
    status := .deleted
    createdAt := ⟨86400, 0, by decide, by decide⟩
    updatedAt := ⟨86400, 0, by decide, by decide⟩ }

/-- Where the team is stored, the update succeeds in both stores. In memory its owner, its status
and its date of creation are gone; in the database they are kept. -/
theorem memory_takes_whole_record :
    let s := (Usage.start.afterAll
      [.call (fun _ => .ok ⟨.team, .createTeam newDraft⟩) .epoch]).kept
    let db := (Database.empty.perform (.createTeam newDraft)).store
    s.teams = [newDraft.team 1] ∧ db.teams = [.of (newDraft.team 1)] ∧
      (Store.perform (.updateTeam foreignRecord) s).result = .ok foreignRecord ∧
      (Store.perform (.updateTeam foreignRecord) s).store.teams = [foreignRecord] ∧
      foreignRecord ≠ (newDraft.team 1).withFieldsOf foreignRecord ∧
      (db.perform (.updateTeam foreignRecord)).result =
        .ok ((newDraft.team 1).withFieldsOf foreignRecord) ∧
      (db.perform (.updateTeam foreignRecord)).store.teams =
        [.of ((newDraft.team 1).withFieldsOf foreignRecord)] := by
  decide +kernel

/-- Both stores come to their verdicts there. -/
theorem team_updates_of_foreign_record :
    let uses : List Use := [.call (fun _ => .ok ⟨.team, .createTeam newDraft⟩) .epoch]
    let s := (Usage.start.afterAll uses).kept
    let db := (Database.empty.perform (.createTeam newDraft)).store
    s ∈ (Usage.start.afterAll uses).views ∧ db.Reached ∧
      s.UpdateVerdict foreignRecord ∧ db.UpdateVerdict foreignRecord := by
  intro uses s db
  have hs : s ∈ (Usage.start.afterAll uses).views := List.mem_cons_self
  have hdb : db.Reached := .call (.createTeam newDraft) .empty
  obtain ⟨hmemory, hdatabase⟩ := team_updates foreignRecord
  exact ⟨hs, hdb, hmemory uses s hs, hdatabase db hdb⟩

end Roster
