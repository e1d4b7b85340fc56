import HostBoundary.Identity
import HostBoundary.Json.Scan
import HostBoundary.Text.Decimal

/-!
# Resources

A resource is found by the hash of its content.  The host describes it by a
flat JSON text of its category, its MIME type and its size, which is scanned.

`descriptionText` is the description that a host writes.
-/

namespace HostBoundary

/-- What a resource is for. -/
inductive ResourceCategory where
  | static
  | executable
deriving DecidableEq, Repr

namespace ResourceCategory

/-- The number of a category. -/
def number : ResourceCategory → UInt32
  | static => 0
  | executable => 1

/-- The identifier of a category. -/
def name : ResourceCategory → String
  | static => "Static"
  | executable => "Executable"

/-- All categories. -/
def all : List ResourceCategory := [static, executable]

/-- The category of an identifier. -/
def ofName? (name : String) : Option ResourceCategory :=
  all.find? fun category => category.name == name

@[simp] theorem ofName?_name (category : ResourceCategory) :
    ofName? category.name = some category := by
  cases category <;> decide

/-- The category that a field names; whatever is not known is static. -/
def ofField (value : String) : ResourceCategory :=
  if value = "EXECUTABLE" || value = "1" then executable else static

end ResourceCategory

/-- A resource. -/
structure Resource where
  /-- The hash of its content. -/
  contentHash : Hash
  /-- What it is for. -/
  category : ResourceCategory
  /-- The type of its content. -/
  mimeType : String
  /-- The length of its content. -/
  size : UInt64
deriving DecidableEq

namespace Resource

/-- The resource that a description tells. -/
def ofDescription (contentHash : Hash) (json : String) : Resource where
  contentHash
  category := ResourceCategory.ofField (Scan.field json "category")
  mimeType := Scan.field json "mimeType"
  size := Scan.amount json "size"

/-- The description of a resource. -/
def descriptionText (category mimeType : String) (size : UInt64) : String :=
  "\x7b\"category\":\"" ++ category ++ "\",\"mimeType\":\"" ++ mimeType ++ "\",\"size\":\""
    ++ decimal size ++ "\"\x7d"

end Resource

end HostBoundary
