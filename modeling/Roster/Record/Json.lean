/-!
# JSON values

The values in which records are exchanged. Numbers that are no integers are
kept apart from integers, because no record has one.

* `Json.text?`, `Json.int?`, `Json.nat?` — readers of plain values;
* `Json.fields?` — the fields of a record, which is an object or the list of
  all its fields in order;
* `Json.tag?`, `Json.sharedTag?` — the name of a plain enumeration value.
-/

namespace Roster

/-- A JSON value. -/
inductive Json
  | null
  | bool (value : Bool)
  | int (value : Int)
  | decimal (digits : Int) (places : Nat)
  | text (value : String)
  | list (values : List Json)
  | object (fields : List (String × Json))
deriving Inhabited

namespace Json

/-- A string. -/
def text? : Json → Option String
  | .text value => some value
  | _ => none

/-- An integer from `low` to `high`. -/
def int? (low high : Int) : Json → Option Int
  | .int value => if low ≤ value ∧ value ≤ high then some value else none
  | _ => none

/-- The smallest and the largest id. -/
def minId : Int := -9223372036854775808

/-- The largest id. -/
def maxId : Int := 9223372036854775807

/-- An id: a signed integer of 64 bits. -/
def id? (value : Json) : Option Int :=
  value.int? minId maxId

/-- An unsigned integer of 32 bits. -/
def word? (value : Json) : Option UInt32 :=
  (value.int? 0 4294967295).map fun n => UInt32.ofNat n.toNat

/-- The fields of a record with the given field names: those of an object,
whatever else it holds, or a list with one value for each name. -/
def fields? (names : List String) : Json → Option (String → Option Json)
  | .object fields => some (fields.lookup ·)
  | .list values =>
    if values.length = names.length then some ((names.zip values).lookup ·) else none
  | _ => none

/-- The name of an enumeration value: a string, or an object that holds nothing
but the name. -/
def tag? : Json → Option String
  | .text name => some name
  | .object [(name, .null)] => some name
  | _ => none

/-- The name of an enumeration value inside a record that shares its object
with another: there an empty object may stand beside the name as well. -/
def sharedTag? : Json → Option String
  | .object [(name, .object [])] => some name
  | value => value.tag?

/-- A required field. -/
def required {α : Type} (field : String → Option Json) (name : String)
    (read : Json → Option α) : Option α :=
  (field name).bind read

/-- A field that may be absent or null. -/
def optional {α : Type} (field : String → Option Json) (name : String)
    (read : Json → Option α) : Option (Option α) :=
  match field name with
  | none => some none
  | some .null => some none
  | some value => (read value).map some

/-- An absent value as null. -/
def ofOption {α : Type} (write : α → Json) : Option α → Json
  | some a => write a
  | none => .null

end Json

end Roster
