import Roster.Error

/-!
# Pages

A `Page` is a window of a listing: at least one and at most `Page.maxLimit`
entries, after an offset.

* `Page.of` — clamps the limit and refuses zero;
* `Page.request` — the page of a request in which either number may be missing;
* `Page.slice` — the window of a list.
-/

namespace Roster

/-- A window of a listing. -/
structure Page where
  limit : UInt32
  offset : UInt32
deriving DecidableEq

namespace Page

/-- The limit of a page that names none. -/
def defaultLimit : UInt32 := 20

/-- The largest limit. -/
def maxLimit : UInt32 := 100

/-- The first page at the default limit. -/
def first : Page := ⟨defaultLimit, 0⟩

/-- A page of at most `maxLimit` entries. -/
def of (limit offset : UInt32) : Except TeamError Page :=
  if limit = 0 then .error (.invalid "page limit must be at least 1")
  else .ok ⟨if limit ≤ maxLimit then limit else maxLimit, offset⟩

/-- The page of a request: the first page if neither number is given. -/
def request : Option UInt32 → Option UInt32 → Except TeamError Page
  | none, none => .ok first
  | limit, offset => of (limit.getD defaultLimit) (offset.getD 0)

/-- The window of a list. -/
def slice {α : Type} (page : Page) (entries : List α) : List α :=
  (entries.drop page.offset.toNat).take page.limit.toNat

theorem slice_map {α β : Type} (page : Page) (f : α → β) (entries : List α) :
    page.slice (entries.map f) = (page.slice entries).map f := by
  rw [slice, slice, List.map_take, List.map_drop]

end Page

end Roster
