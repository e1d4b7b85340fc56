import HostBoundary.Bytes
import HostBoundary.Json.Basic
import HostBoundary.Text.Utf8

/-!
# Stored forms

Records are kept as JSON values.  A *form* of a type is a way to write its
values and to read them again; a form is *faithful* when reading gives back
what was written.

## What reading allows

Writing has one result, reading is lenient:

* the members of an object may come in any order, others are ignored, and of a
  repeated key the last one counts;
* a member that may be missing may also be `null`;
* a record may be a list of exactly its fields, in order;
* a byte string may be a text, and then means its UTF-8 bytes;
* a case without content may be written with a content of `null`.

A number has to be written with digits alone and has to fit its width.

The combinators are `Form.optional` and `Form.list` for the containers,
`fields?` and `required`, `optionalField` for records, and `case?` for types of
several cases.
-/

namespace HostBoundary

/-- A way to write the values of a type as JSON and to read them again. -/
structure Form (α : Type) where
  /-- The JSON value of a value. -/
  write : α → Json
  /-- The value of a JSON value, if it has the form. -/
  read? : Json → Option α

namespace Form

/-- Reading gives back what was written. -/
def Faithful {α : Type} (form : Form α) : Prop :=
  ∀ a, form.read? (form.write a) = some a

/-- Reads a value and writes it again, which leaves the strict form of it. -/
def normalize? {α : Type} (form : Form α) (value : Json) : Option Json :=
  (form.read? value).map form.write

/-! ## Scalars -/

/-- The number of a value, if it is a natural number below `bound`. -/
def natBelow? (bound : Nat) : Json → Option Nat
  | .number (.natural n) => if n < bound then some n else none
  | _ => none

/-- The form of a byte. -/
def uint8 : Form UInt8 := ⟨fun n => .nat n.toNat, fun v => (natBelow? UInt8.size v).map UInt8.ofNat⟩

/-- The form of a 32-bit number. -/
def uint32 : Form UInt32 :=
  ⟨fun n => .nat n.toNat, fun v => (natBelow? UInt32.size v).map UInt32.ofNat⟩

/-- The form of a 64-bit number. -/
def uint64 : Form UInt64 :=
  ⟨fun n => .nat n.toNat, fun v => (natBelow? UInt64.size v).map UInt64.ofNat⟩

/-- The form of a truth value. -/
def bool : Form Bool :=
  ⟨.bool, fun | .bool b => some b | _ => none⟩

/-- The form of a text. -/
def string : Form String :=
  ⟨.string, fun | .string s => some s | _ => none⟩

/-! ## Containers -/

/-- The form of a list. -/
def list {α : Type} (form : Form α) : Form (List α) where
  write items := .array (items.map form.write)
  read?
    | .array items => items.mapM form.read?
    | _ => none

/-- The form of a value that may be missing. -/
def optional {α : Type} (form : Form α) : Form (Option α) where
  write := Json.orNull form.write
  read?
    | .null => some none
    | value => (form.read? value).map some

/-- The form of a byte string: a list of numbers, or a text for its bytes. -/
def bytes : Form Bytes where
  write bytes := (list uint8).write bytes
  read?
    | .string s => some (Utf8.encode s)
    | value => (list uint8).read? value

/-! ## Records -/

/-- The named members of an object, each with its last value. -/
def members? (names : List String) : Json → Option (List (Option Json))
  | .object members => some (names.map fun name => Json.lastMember? name members)
  | _ => none

/-- The fields of a record: the named members of an object, or the items of a
list that has as many. -/
def fields? (names : List String) : Json → Option (List (Option Json))
  | .array items => if items.length = names.length then some (items.map some) else none
  | value => members? names value

/-- A field that has to be there. -/
def required {α : Type} (form : Form α) (field : Option Json) : Option α :=
  field.bind form.read?

/-- A field that may be missing. -/
def optionalField {α : Type} (form : Form α) : Option Json → Option (Option α)
  | none => some none
  | some value => form.optional.read? value

/-! ## Cases -/

/-- A case written with its content. -/
def caseOf (name : String) (content : Json) : Json := .object [(name, content)]

/-- The name of a case, and its content if it has any: a text, or an object
with a single key. -/
def case? : Json → Option (String × Option Json)
  | .string name => some (name, none)
  | .object ((name, value) :: rest) =>
    if rest.all fun member => member.1 == name then
      some (name, Json.lastMember? name ((name, value) :: rest))
    else none
  | _ => none

/-- The form of a type whose cases have no content. -/
def names {α : Type} (name : α → String) (ofName? : String → Option α) : Form α where
  write a := .string (name a)
  read? value :=
    match case? value with
    | some (name, none) | some (name, some .null) => ofName? name
    | _ => none

end Form

end HostBoundary
