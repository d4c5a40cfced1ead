import Roster.Proofs.Usage
import Roster.Proofs.DeletedTeam

/-!
# Asking for page after page

A caller asks for the first page of a listing and goes on by the limit that it was given, until a
page is not full. So it comes by every row that the listing is about, just once.

* `Page.following`, `Program.Gathers` — the page behind a page, and what pages in a row come to;
  `Program.Gathers.unique`, and `Program.gathers_slices` for the pages of one list;
* `NewestOf` — rows arranged strictly newest first; `newestOf_mergeSort` that sorting by date and
  id arranges them so;
* `World.PagedListings` — what the listings of a store come to, and
  `Usage.listings_paged` that they do however the store was used.
-/

namespace Roster

/-! ## Pages in a row -/

namespace Page

variable {limit : UInt32}

/-- The page behind a page, as it is asked for: at the limit that was given. -/
def following (page : Page) : Except TeamError Page :=
  of page.limit (page.offset + page.limit)

/-- A page at any limit but zero is given at some limit in range. -/
theorem exists_of (hlimit : limit ≠ 0) (offset : UInt32) :
    ∃ given, of limit offset = .ok ⟨given, offset⟩ ∧ given ≠ 0 ∧ given ≤ maxLimit := by
  rw [of, if_neg hlimit]
  split
  · rename_i hmax
    exact ⟨limit, rfl, hlimit, hmax⟩
  · exact ⟨maxLimit, rfl, by decide, UInt32.le_refl maxLimit⟩

/-- A limit in range is given as it is. -/
theorem of_inRange (hlimit : limit ≠ 0) (hmax : limit ≤ maxLimit) (offset : UInt32) :
    of limit offset = .ok ⟨limit, offset⟩ := by
  rw [of, if_neg hlimit, if_pos hmax]

end Page

namespace Program

variable {α : Type} {ask : Page → Program (List α)} {page : Page} {w v v' : World Tables}
  {rows rows' : List α}

/-- Asking for page after page until one is not full gathers the rows. -/
inductive Gathers (ask : Page → Program (List α)) :
    Page → World Tables → List α → World Tables → Prop
  | last {page : Page} {w : World Tables} {rows : List α}
      (answer : ((ask page).run w).result = .ok rows)
      (short : rows.length < page.limit.toNat) :
      Gathers ask page w rows ((ask page).run w).world
  | more {page next : Page} {w v : World Tables} {rows rest : List α}
      (answer : ((ask page).run w).result = .ok rows)
      (full : page.limit.toNat ≤ rows.length)
      (onward : page.following = .ok next)
      (others : Gathers ask next ((ask page).run w).world rest v) :
      Gathers ask page w (rows ++ rest) v

/-- There is one thing only that they come to. -/
theorem Gathers.unique (h : Gathers ask page w rows v) (h' : Gathers ask page w rows' v') :
    rows' = rows ∧ v' = v := by
  induction h generalizing rows' v' with
  | last answer short =>
    cases h' with
    | last answer' _ =>
      cases answer.symm.trans answer'
      exact ⟨rfl, rfl⟩
    | more answer' full _ _ =>
      cases answer.symm.trans answer'
      exact absurd full (Nat.not_le.mpr short)
  | more answer full onward _ ih =>
    cases h' with
    | last answer' short =>
      cases answer.symm.trans answer'
      exact absurd full (Nat.not_le.mpr short)
    | more answer' _ onward' others' =>
      cases answer.symm.trans answer'
      cases onward.symm.trans onward'
      obtain ⟨rfl, rfl⟩ := ih others'
      exact ⟨rfl, rfl⟩

/-- Every answer is a page of one and the same list. -/
def Slices (ask : Page → Program (List α)) (w : World Tables) (rows : List α) : Prop :=
  ∀ page, (ask page).run w = ⟨.ok (page.slice rows), [], w⟩

/-- The pages of one list come to all that is left of it. -/
theorem gathers_slices (hask : Slices ask w rows) (hcount : rows.length < UInt32.size)
    {limit offset : UInt32} (hlimit : limit ≠ 0) (hmax : limit ≤ Page.maxLimit)
    (hoffset : offset.toNat ≤ rows.length) :
    Gathers ask ⟨limit, offset⟩ w (rows.drop offset.toNat) w := by
  have hpositive : 0 < limit.toNat :=
    Nat.pos_of_ne_zero fun hzero => hlimit (UInt32.toNat_inj.mp hzero)
  -- every full page leaves less of the list
  induction hleft : rows.length - offset.toNat using Nat.strongRecOn generalizing offset with
  | ind left ih =>
    let page : Page := ⟨limit, offset⟩
    have hrun := hask page
    have hresult : ((ask page).run w).result = .ok (page.slice rows) := by rw [hrun]
    have hworld : ((ask page).run w).world = w := by rw [hrun]
    have hlength : (page.slice rows).length = min limit.toNat left := by
      rw [Page.slice, List.length_take, List.length_drop, hleft]
    by_cases hfull : limit.toNat ≤ left
    · -- a full page lies within the list, so that the next offset is in range
      have hnext : (offset + limit).toNat = offset.toNat + limit.toNat := by
        rw [UInt32.toNat_add, Nat.mod_eq_of_lt]
        simp only [UInt32.size] at hcount
        omega
      have hothers : Gathers ask ⟨limit, offset + limit⟩ w (rows.drop (offset + limit).toNat) w := by
        refine ih (left - limit.toNat) ?_ ?_ ?_
        all_goals omega
      have hsplit : page.slice rows ++ rows.drop (offset + limit).toNat =
          rows.drop offset.toNat := by
        rw [hnext, ← List.drop_drop, Page.slice, List.take_append_drop]
      rw [← hsplit]
      refine .more hresult ?_ (Page.of_inRange hlimit hmax _) ?_
      · rw [hlength]
        exact Nat.le_min.mpr ⟨Nat.le_refl _, hfull⟩
      · rw [hworld]
        exact hothers
    · have hall : page.slice rows = rows.drop offset.toNat := by
        rw [Page.slice, List.take_of_length_le]
        rw [List.length_drop, hleft]
        exact Nat.le_of_not_le hfull
      have hshort : (page.slice rows).length < page.limit.toNat := by
        rw [hlength]
        exact Nat.lt_of_le_of_lt (Nat.min_le_right _ _) (Nat.lt_of_not_le hfull)
      have hlast := Gathers.last hresult hshort
      rwa [hworld, hall] at hlast

/-- From the first page of a requested limit on, asking comes to the rows and nothing else, and
leaves the world as it is. -/
def PagesThrough (ask : Page → Program (List α)) (w : World Tables) (limit : UInt32)
    (rows : List α) : Prop :=
  ∃ page, Page.of limit 0 = .ok page ∧
    ∀ rows' v, Gathers ask page w rows' v ↔ rows' = rows ∧ v = w

/-- A listing of fewer rows than there are offsets is paged through at any limit but zero. -/
theorem Slices.pagesThrough (hask : Slices ask w rows) (hcount : rows.length < UInt32.size)
    {limit : UInt32} (hlimit : limit ≠ 0) : PagesThrough ask w limit rows := by
  obtain ⟨given, hpage, hgiven, hmax⟩ := Page.exists_of hlimit 0
  have hgathers : Gathers ask ⟨given, 0⟩ w rows w :=
    gathers_slices hask hcount hgiven hmax (Nat.zero_le _)
  refine ⟨_, hpage, ?_⟩
  intro rows' v
  constructor
  · exact hgathers.unique
  · rintro ⟨rfl, rfl⟩
    exact hgathers

/-- A call that reads a page of the rows. -/
theorem slices_perform {call : Page → StoreCall (List α)}
    (hcall : ∀ page, w.store.perform (call page) = .ok (page.slice rows, w.store)) :
    Slices (fun page => ofWork (Work.perform (call page))) w rows := by
  intro page
  simp [run_ofWork, Work.run_perform, Tables.perform_eq, hcall, World.adopt, Failure.ofResult]

end Program

/-! ## Newest first -/

section

variable {α : Type} (created : α → Instant) (key : α → Int)

/-- The order of listings: by date, and by id where the dates are equal. -/
def newestBy (a b : α) : Bool :=
  created b < created a || (created a = created b && key b ≤ key a)

/-- The rows, arranged strictly newest first. -/
structure NewestOf (rows arranged : List α) : Prop where
  perm : arranged.Perm rows
  newest : arranged.Pairwise fun a b =>
    created b < created a ∨ created a = created b ∧ key b < key a

variable {created key}

theorem newestBy_iff {a b : α} : newestBy created key a b = true ↔
    created b < created a ∨ created a = created b ∧ key b ≤ key a := by
  simp only [newestBy, Bool.or_eq_true, Bool.and_eq_true, decide_eq_true_eq]

theorem newestBy_trans {a b c : α} (hab : newestBy created key a b = true)
    (hbc : newestBy created key b c = true) : newestBy created key a c = true := by
  rw [newestBy_iff] at *
  rcases hab with hab | ⟨hab, hkey⟩
  · rcases hbc with hbc | ⟨hbc, -⟩
    · exact .inl (Instant.lt_trans hbc hab)
    · exact .inl (hbc ▸ hab)
  · rcases hbc with hbc | ⟨hbc, hkey'⟩
    · exact .inl (hab ▸ hbc)
    · exact .inr ⟨hab.trans hbc, Int.le_trans hkey' hkey⟩

theorem newestBy_total (a b : α) : (newestBy created key a b || newestBy created key b a) = true := by
  rw [Bool.or_eq_true, newestBy_iff, newestBy_iff]
  by_cases hab : created a < created b
  · exact .inr (.inl hab)
  · by_cases hba : created b < created a
    · exact .inl (.inl hba)
    · have heq := Instant.le_antisymm (Instant.not_lt.mp hba) (Instant.not_lt.mp hab)
      rcases Int.le_total (key b) (key a) with hle | hle
      · exact .inl (.inr ⟨heq, hle⟩)
      · exact .inr (.inr ⟨heq.symm, hle⟩)

/-- Sorting arranges rows with different ids so. -/
theorem newestOf_mergeSort {rows : List α} (hkeys : (rows.map key).Nodup) :
    NewestOf created key rows (rows.mergeSort (newestBy created key)) := by
  have hperm := List.mergeSort_perm rows (newestBy created key)
  have hsorted : (rows.mergeSort (newestBy created key)).Pairwise
      fun a b => newestBy created key a b = true :=
    List.pairwise_mergeSort (fun _ _ _ => newestBy_trans) newestBy_total rows
  have hdistinct : (rows.mergeSort (newestBy created key)).Pairwise fun a b => key a ≠ key b :=
    List.pairwise_map.mp ((hperm.map key).nodup_iff.mpr hkeys)
  refine ⟨hperm, (hsorted.and hdistinct).imp ?_⟩
  rintro a b ⟨hnewest, hne⟩
  refine (newestBy_iff.mp hnewest).imp_right ?_
  rintro ⟨hsame, hle⟩
  exact ⟨hsame, by omega⟩

end

/-! ## The listings of a store -/

/-- Page by page, at a requested limit, listings come to just the rows that they are about, strictly
newest first. -/
structure World.PagedListings (w : World Tables) (limit : UInt32) : Prop where
  /-- The active teams of a user, and the same teams with the stored role of the user. -/
  teams : ∀ user,
    let matching := w.store.teams.filter fun t => t.isActive && w.store.isMember t.id user
    matching.length < UInt32.size → ∃ arranged entries,
      NewestOf Team.createdAt Team.id matching arranged ∧
      Program.PagesThrough (fun page => .ofWork (Work.perform (.listTeamsOf user page))) w limit
        arranged ∧
      Program.PagesThrough (listMyTeams user) w limit entries ∧ entries.map (·.team) = arranged ∧
      ∀ entry ∈ entries, ∃ m ∈ w.store.members,
        m.teamId = entry.team.id ∧ m.userId = user ∧ m.role = entry.role
  /-- The invitations of a team, of one status or of any. -/
  ofTeam : ∀ team (status : Option InvitationStatus),
    let matching := w.store.invitations.filter fun i =>
      i.teamId = team && status.all (i.status = ·)
    matching.length < UInt32.size → ∃ arranged,
      NewestOf Invitation.createdAt Invitation.id matching arranged ∧
      Program.PagesThrough
        (fun page => .ofWork (Work.perform (.listInvitationsOf team status page))) w limit arranged
  /-- The invitations to an address, of one status or of any. -/
  toAddress : ∀ email (status : Option InvitationStatus),
    let matching := w.store.invitations.filter fun i =>
      i.email = email && status.all (i.status = ·)
    matching.length < UInt32.size → ∃ arranged,
      NewestOf Invitation.createdAt Invitation.id matching arranged ∧
      Program.PagesThrough
        (fun page => .ofWork (Work.perform (.listInvitationsTo email status page))) w limit arranged

section

variable {w : World Tables} {user : Int}

/-- Every team of a list whose members the user belongs to has its entry. -/
theorem Tables.exists_entries {s : Tables} {teams : List Team}
    (hmember : ∀ t ∈ teams, s.isMember t.id user = true) :
    ∃ entries : List MyTeam, teams.map (s.entryOf user) = entries.map some ∧
      entries.map (·.team) = teams ∧
      ∀ entry ∈ entries, ∃ m ∈ s.members,
        m.teamId = entry.team.id ∧ m.userId = user ∧ m.role = entry.role := by
  induction teams with
  | nil => exact ⟨[], rfl, rfl, fun _ hentry => absurd hentry List.not_mem_nil⟩
  | cons t rest ih =>
    obtain ⟨entries, hentries, hteams, hroles⟩ :=
      ih fun t' ht' => hmember t' (List.mem_cons_of_mem t ht')
    cases hfound : s.findMember t.id user with
    | none =>
      have hsome := hmember t List.mem_cons_self
      rw [← isSome_findMember, hfound] at hsome
      cases hsome
    | some m =>
      obtain ⟨hm, hteam, huser⟩ := findMember_some hfound
      refine ⟨⟨t, m.role⟩ :: entries, ?_, ?_, ?_⟩
      · simp only [List.map_cons, hentries, entryOf, hfound, Option.map_some]
      · simp only [List.map_cons, hteams]
      · rintro entry (- | ⟨-, hentry⟩)
        · exact ⟨m, hm, hteam, huser, rfl⟩
        · exact hroles entry hentry

/-- A user's own listing reads the teams of a page, and then their entries. -/
theorem slices_listMyTeams {arranged : List Team} {entries : List MyTeam}
    (hteams : ∀ page, w.store.listTeamsOf user page = page.slice arranged)
    (hentries : arranged.map (w.store.entryOf user) = entries.map some) :
    Program.Slices (listMyTeams user) w entries := by
  intro page
  have hpage : (page.slice arranged).filterMap (w.store.entryOf user) = page.slice entries := by
    have hslices := congrArg page.slice hentries
    rw [Page.slice_map, Page.slice_map] at hslices
    have hthere := congrArg (List.filterMap id) hslices
    rwa [List.filterMap_map, List.filterMap_map, Function.id_comp, Function.id_comp,
      List.filterMap_some] at hthere
  rw [run_listMyTeams, hteams, hpage]

/-- A listing of invitations comes to those that it is about. -/
theorem exists_paged_invitations (hk : w.store.Keyed) {limit : UInt32} (hlimit : limit ≠ 0)
    {p : Invitation → Bool} {status : Option InvitationStatus}
    {call : Page → StoreCall (List Invitation)}
    (hcall : ∀ page,
      w.store.perform (call page) = .ok (w.store.listInvitations p status page, w.store))
    (hcount : (w.store.invitations.filter fun i => p i && status.all (i.status = ·)).length <
      UInt32.size) :
    ∃ arranged,
      NewestOf Invitation.createdAt Invitation.id
        (w.store.invitations.filter fun i => p i && status.all (i.status = ·)) arranged ∧
      Program.PagesThrough (fun page => .ofWork (Work.perform (call page))) w limit arranged := by
  have hkeys : ((w.store.invitations.filter fun i => p i && status.all (i.status = ·)).map
      Invitation.id).Nodup :=
    hk.invitations.sublist (List.filter_sublist.map _)
  have hnewest : NewestOf Invitation.createdAt Invitation.id _ _ := newestOf_mergeSort hkeys
  have hlength := Nat.lt_of_le_of_lt (Nat.le_of_eq hnewest.perm.length_eq) hcount
  exact ⟨_, hnewest, (Program.slices_perform hcall).pagesThrough hlength hlimit⟩

/-- On tables with keys, the listings come to what they are about. -/
theorem World.pagedListings (hk : w.store.Keyed) {limit : UInt32} (hlimit : limit ≠ 0) :
    w.PagedListings limit where
  teams := by
    intro user matching hcount
    have hkeys : (matching.map (·.id)).Nodup := hk.teams.sublist (List.filter_sublist.map _)
    have hnewest : NewestOf Team.createdAt Team.id matching _ := newestOf_mergeSort hkeys
    have hlength := hnewest.perm.length_eq
    generalize harranged :
      matching.mergeSort (newestBy Team.createdAt Team.id) = arranged at hnewest hlength
    have hteams : ∀ page, w.store.listTeamsOf user page = page.slice arranged := by
      intro page
      rw [← harranged]
      rfl
    have hmember : ∀ t ∈ arranged, w.store.isMember t.id user = true := by
      intro t ht
      have hmatching := List.of_mem_filter (hnewest.perm.mem_iff.mp ht)
      exact (Bool.and_eq_true_iff.mp hmatching).2
    obtain ⟨entries, hentries, hsame, hroles⟩ := Tables.exists_entries hmember
    have hlength' : entries.length = arranged.length := by
      rw [← hsame, List.length_map]
    refine ⟨arranged, entries, hnewest, ?_, ?_, hsame, hroles⟩
    · refine (Program.slices_perform ?_).pagesThrough (by omega) hlimit
      exact fun page => congrArg (fun rows => Except.ok (rows, w.store)) (hteams page)
    · exact (slices_listMyTeams hteams hentries).pagesThrough (by omega) hlimit
  ofTeam := fun _ _ hcount => exists_paged_invitations hk hlimit (fun _ => rfl) hcount
  toAddress := fun _ _ hcount => exists_paged_invitations hk hlimit (fun _ => rfl) hcount

end

namespace Usage

/-- However a store is used, page by page at any limit but zero, the listings come to just the rows
that they are about, each once and newest first. -/
theorem listings_paged (uses : List Use) {s : Tables} (hs : s ∈ (start.afterAll uses).views)
    (clock : Instant) (random : RandomSource) {limit : UInt32} (hlimit : limit ≠ 0) :
    World.PagedListings ⟨s, clock, random⟩ limit :=
  World.pagedListings (views_regular uses hs).keyed hlimit

/-- Three teams of one user and one date take two pages of two. -/
theorem listings_paged_of_three_teams :
    let create (slug : String) : Use :=
      .call (fun _ => .ok ⟨.team, .createTeam ⟨7, "Core", slug, none, .everyone, 2, .epoch⟩⟩) .epoch
    let join (team : Int) : Use :=
      .call (fun _ => .ok ⟨.member, .addMember ⟨team, 7, .owner, .epoch⟩⟩) .epoch
    let uses := [create "core", create "core-2", create "core-3", join 1, join 2, join 3]
    let s := (start.afterAll uses).kept
    s ∈ (start.afterAll uses).views ∧ (2 : UInt32) ≠ 0 ∧
      (s.teams.filter fun t => t.isActive && s.isMember t.id 7).map (·.id) = [1, 2, 3] ∧
      World.PagedListings ⟨s, .epoch, .sequence⟩ 2 := by
  intro create join uses s
  have hs : s ∈ (start.afterAll uses).views := List.mem_cons_self
  exact ⟨hs, by decide, by decide, listings_paged uses hs .epoch .sequence (by decide)⟩

end Usage

end Roster
