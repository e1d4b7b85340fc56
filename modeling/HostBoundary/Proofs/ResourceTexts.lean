import HostBoundary.Proofs.Descriptions
import HostBoundary.Record.Resource

/-!
# What the description of a resource tells

The description of a resource has three members: its category, its MIME type and its size.
The first two are pasted in as they are, so either may look like a member, or be the name
of one.  As long as they have no quotation mark the labels of the description are still the
three names, each in its place, and each field is what was pasted behind it.

A field that is empty is searched for twice, since an empty quoted value looks like none.
The second search finds the same member, and the same nothing in it.

## Main results

* `Resource.ofDescription_descriptionText` — the description of a resource tells the
  resource.
-/

namespace HostBoundary

open Bytes Utf8

namespace Resource

/-- The members of a description. -/
def described (category mimeType : String) (size : UInt64) : List (String × String) :=
  [("category", category), ("mimeType", mimeType), ("size", decimal size)]

variable {category mimeType : String}

theorem unmarked_described (unmarkedCategory : '"' ∉ category.toList)
    (unmarkedMime : '"' ∉ mimeType.toList) (size : UInt64) :
    ∀ member ∈ described category mimeType size, Quoted.Unmarked member := by
  have names : '"' ∉ "category".toList ∧ '"' ∉ "mimeType".toList ∧ '"' ∉ "size".toList := by
    decide
  have digits : '"' ∉ (decimal size).toList := fun mem =>
    absurd (Json.plainText_decimal size _ mem).1 (by decide)
  simp only [described, List.forall_mem_cons]
  exact ⟨⟨names.1, unmarkedCategory⟩, ⟨names.2.1, unmarkedMime⟩, ⟨names.2.2, digits⟩,
    List.forall_mem_nil _⟩

/-- The description is the object of these members. -/
theorem descriptionText_eq (category mimeType : String) (size : UInt64) :
    descriptionText category mimeType size
      = "\x7b" ++ Quoted.membersText (described category mimeType size) ++ "\x7d" := by
  have opening : "\x7b\"category\":\"" = "\x7b" ++ ("\"" ++ ("category" ++ "\":\"")) := by decide
  have second : "\",\"mimeType\":\"" = "\"" ++ ("," ++ ("\"" ++ ("mimeType" ++ "\":\""))) := by
    decide
  have third : "\",\"size\":\"" = "\"" ++ ("," ++ ("\"" ++ ("size" ++ "\":\""))) := by decide
  have closing : "\"\x7d" = "\"" ++ "\x7d" := by decide
  -- the text is written out, since it takes Lean long to find the equations of `descriptionText`
  show "\x7b\"category\":\"" ++ category ++ "\",\"mimeType\":\"" ++ mimeType ++ "\",\"size\":\""
    ++ decimal size ++ "\"\x7d" = _
  simp only [described, Quoted.membersText, Quoted.memberText, opening, second, third, closing,
    String.append_assoc]

/-- **The description of a resource tells the resource**, whatever its category and its MIME
type look like, as long as they have no quotation mark. -/
theorem ofDescription_descriptionText (contentHash : Hash) (size : UInt64)
    (unmarkedCategory : '"' ∉ category.toList) (unmarkedMime : '"' ∉ mimeType.toList) :
    ofDescription contentHash (descriptionText category mimeType size)
      = { contentHash
          category :=
            if category = "EXECUTABLE" ∨ category = "1" then .executable else .static
          mimeType
          size } := by
  obtain ⟨inside, shows, labelled⟩ :=
    Quoted.labelled_braced (unmarked_described unmarkedCategory unmarkedMime size) (.inl rfl)
  rw [← descriptionText_eq, ← List.append_nil inside] at labelled
  have field (name : String) (word : Word (encode name)) {value : String}
      (found : (described category mimeType size).find? (·.1 = name) = some (name, value)) :
      Scan.field (descriptionText category mimeType size) name = value :=
    Quoted.field_of_found shows labelled word found
  have categoryField := field "category" (by decide) rfl
  have mimeField := field "mimeType" (by decide) rfl
  have sizeField := field "size" (by decide) rfl
  rw [ofDescription, categoryField, mimeField, Scan.amount, sizeField,
    Scan.leadingAmount_decimal, ResourceCategory.ofField]
  simp only [Bool.or_eq_true, decide_eq_true_eq]

/-- A MIME type that is made of the names of members, with all that stands between them but
the quotation marks, and a backslash at its end. -/
def hostileMime : String := "category:EXECUTABLE,mimeType:\x7bsize:1\x7d,\\"

/-- Beside an empty category it is told as it is, and a category may be the name of one. -/
theorem ofDescription_descriptionText_hostile :
    '"' ∉ "".toList ∧ '"' ∉ "size".toList ∧ '"' ∉ hostileMime.toList ∧
    ofDescription .zero (descriptionText "" hostileMime 18446744073709551615)
      = ⟨.zero, .static, hostileMime, 18446744073709551615⟩ ∧
    ofDescription .zero (descriptionText "size" "" 0) = ⟨.zero, .static, "", 0⟩ ∧
    ofDescription .zero (descriptionText "1" hostileMime 7)
      = ⟨.zero, .executable, hostileMime, 7⟩ := by
  have mime : '"' ∉ hostileMime.toList := by decide
  exact ⟨by decide, by decide, mime,
    ofDescription_descriptionText .zero _ (by decide) mime,
    ofDescription_descriptionText .zero _ (by decide) (by decide),
    ofDescription_descriptionText .zero _ (by decide) mime⟩

end Resource

end HostBoundary
