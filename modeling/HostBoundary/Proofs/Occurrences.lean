import HostBoundary.Proofs.Search

/-!
# Positions of occurrences

A search answers a position, and every scan takes that position for the *first* one.
This module says so in terms of positions alone: where a needle occurs in a text, which
of these positions comes first from a start on, and that a search answers that one.

Occurrences may overlap, and the start may stand inside of one.  So the least position is
not found by dividing the text into pieces, and a search from a start is not the rest of a
search from an earlier one.

## Main results

* `Bytes.findFrom_eq_some_iff`, `Bytes.findFrom_eq_none_iff` — a search answers the first
  occurrence, and nothing exactly where there is none.
* `Bytes.findFrom_append` — an answer stays when the text goes on.
* `Scan.search_exact` — the same for the search of a quoted key.
-/

namespace HostBoundary

namespace Bytes

variable {needle hay tail : Bytes} {start p q : Nat}

/-! ## Occurrences -/

/-- The needle stands in the text at a position. -/
def OccursAt (needle hay : Bytes) (p : Nat) : Prop := needle <+: hay.drop p

instance (needle hay : Bytes) (p : Nat) : Decidable (OccursAt needle hay p) :=
  inferInstanceAs (Decidable (_ <+: _))

namespace OccursAt

/-- A needle that is not empty ends inside of the text. -/
theorem fits (occurs : OccursAt needle hay p) (nonempty : needle ≠ []) :
    p + needle.length ≤ hay.length := by
  have room : needle.length ≤ (hay.drop p).length := occurs.length_le
  have some : 0 < needle.length := List.length_pos_iff.mpr nonempty
  rw [List.length_drop] at room
  omega

theorem append (occurs : OccursAt needle hay p) (nonempty : needle ≠ []) (tail : Bytes) :
    OccursAt needle (hay ++ tail) p := by
  have inside := occurs.fits nonempty
  rw [OccursAt, List.drop_append_of_le_length (by omega)]
  exact occurs.trans (List.prefix_append _ _)

/-- An occurrence that ends inside of the text does not need what follows it. -/
theorem of_append (occurs : OccursAt needle (hay ++ tail) p)
    (inside : p + needle.length ≤ hay.length) : OccursAt needle hay p := by
  rw [OccursAt, List.drop_append_of_le_length (by omega)] at occurs
  refine List.prefix_of_prefix_length_le occurs (List.prefix_append _ _) ?_
  rw [List.length_drop]
  omega

end OccursAt

/-- A needle occurs from a start on just when it stands in the text from there. -/
theorem infix_drop_iff : needle <:+: hay.drop start ↔ ∃ p, start ≤ p ∧ OccursAt needle hay p := by
  rw [List.infix_iff_prefix_suffix]
  constructor
  · rintro ⟨rest, occurs, suffix⟩
    obtain ⟨k, rfl⟩ : ∃ k, rest = (hay.drop start).drop k :=
      ⟨_, List.suffix_iff_eq_drop.mp suffix⟩
    rw [List.drop_drop] at occurs
    exact ⟨start + k, Nat.le_add_right _ _, occurs⟩
  · rintro ⟨p, le, occurs⟩
    refine ⟨hay.drop p, occurs, ?_⟩
    rw [← Nat.add_sub_cancel' le, ← List.drop_drop]
    exact List.drop_suffix _ _

/-! ## The first one -/

/-- The first position from a start on where the needle occurs. -/
structure FirstFrom (needle hay : Bytes) (start p : Nat) : Prop where
  le : start ≤ p
  occurs : OccursAt needle hay p
  /-- No position from the start on comes before it. -/
  least : ∀ q, start ≤ q → q < p → ¬ OccursAt needle hay q

theorem FirstFrom.unique (first : FirstFrom needle hay start p)
    (other : FirstFrom needle hay start q) : p = q := by
  rcases Nat.lt_trichotomy p q with before | same | behind
  · exact absurd first.occurs (other.least p first.le before)
  · exact same
  · exact absurd other.occurs (first.least q other.le behind)

/-- **Nothing is found exactly where there is no occurrence.** -/
theorem findFrom_eq_none_iff (nonempty : needle ≠ []) :
    findFrom hay needle start = none ↔ ∀ p, start ≤ p → ¬ OccursAt needle hay p := by
  rw [← Option.map_eq_none_iff, drop_findFrom nonempty, behind?_eq_none_iff nonempty,
    infix_drop_iff]
  simp only [not_exists, not_and]

/-- What is found is the first occurrence. -/
theorem firstFrom_of_findFrom (nonempty : needle ≠ [])
    (found : findFrom hay needle start = some p) : FirstFrom needle hay start p := by
  obtain ⟨front, back, whole, rfl, least⟩ := split_of_findFrom nonempty found
  refine ⟨Nat.le_add_right _ _, ?_, fun q le before occurs => ?_⟩
  · rw [OccursAt, ← List.drop_drop, whole, List.append_assoc, List.drop_left]
    exact List.prefix_append _ _
  · -- the text would be divided at an earlier occurrence
    obtain ⟨rest, split⟩ := occurs
    have divided : hay.drop start = (hay.drop start).take (q - start) ++ needle ++ rest := by
      rw [List.append_assoc, split, ← Nat.add_sub_cancel' le, ← List.drop_drop,
        Nat.add_sub_cancel_left, List.take_append_drop]
    have length := List.length_take_le (q - start) (hay.drop start)
    have earliest := least _ _ divided
    omega

/-- **A search finds the first occurrence.** -/
theorem findFrom_eq_some_iff (nonempty : needle ≠ []) :
    findFrom hay needle start = some p ↔ FirstFrom needle hay start p := by
  refine ⟨firstFrom_of_findFrom nonempty, fun first => ?_⟩
  cases found : findFrom hay needle start with
  | none => exact absurd first.occurs ((findFrom_eq_none_iff nonempty).mp found p first.le)
  | some q => rw [(firstFrom_of_findFrom nonempty found).unique first]

/-- Nothing is found behind the end, and no needle that is longer than what is left. -/
theorem findFrom_of_short (nonempty : needle ≠ []) (short : hay.length < start + needle.length) :
    findFrom hay needle start = none := by
  refine (findFrom_eq_none_iff nonempty).mpr fun p le occurs => ?_
  have fits := occurs.fits nonempty
  omega

/-- The first occurrence stays the first one when the text goes on: an earlier one would
end inside of the text. -/
theorem FirstFrom.append (first : FirstFrom needle hay start p) (nonempty : needle ≠ [])
    (tail : Bytes) : FirstFrom needle (hay ++ tail) start p where
  le := first.le
  occurs := first.occurs.append nonempty tail
  least q le before occurs := by
    have fits := first.occurs.fits nonempty
    exact first.least q le before (occurs.of_append (by omega))

/-- **An answer stays when the text goes on.** -/
theorem findFrom_append (nonempty : needle ≠ []) (found : findFrom hay needle start = some p)
    (tail : Bytes) : findFrom (hay ++ tail) needle start = some p :=
  (findFrom_eq_some_iff nonempty).mpr
    (((findFrom_eq_some_iff nonempty).mp found).append nonempty tail)

end Bytes

namespace Scan

open Bytes Utf8

/-! ## Quoted keys -/

variable {json key suffix : Bytes} {e : Nat}

theorem after?_eq_some_iff : after? json key suffix = some e ↔
    ∃ p, FirstFrom (pattern key suffix) json 0 p ∧ e = p + (pattern key suffix).length := by
  rw [after?, Option.map_eq_some_iff]
  simp only [findFrom_eq_some_iff (pattern_ne_nil key suffix), eq_comm]

theorem after?_append (found : after? json key suffix = some e) (tail : Bytes) :
    after? (json ++ tail) key suffix = some e := by
  obtain ⟨p, first, behind⟩ := after?_eq_some_iff.mp found
  exact after?_eq_some_iff.mpr ⟨p, first.append (pattern_ne_nil key suffix) tail, behind⟩

/-- The pattern of a key is its text in quotation marks, with the suffix behind it. -/
theorem pattern_encode (key suffix : String) :
    pattern (encode key) (encode suffix) = encode ("\"" ++ key ++ "\"" ++ suffix) := by
  have mark : encode "\"" = [quote] := by decide
  simp only [encode_append, mark, pattern, List.append_assoc, List.cons_append, List.nil_append]

/-- **A search is exact.**  From any start on it answers the first occurrence of the
needle, whether or not occurrences overlap, and nothing just where there is none: so it is
past the end of the text, and where less is left than the needle is long.  The scans
therefore continue behind the first occurrence of the quoted key and its suffix, and what
is written behind a text never moves a position that was found. -/
theorem search_exact :
    (∀ (hay needle : Bytes) (start : Nat), needle ≠ [] →
      (∀ p, findFrom hay needle start = some p ↔
        start ≤ p ∧ OccursAt needle hay p ∧ ∀ q, start ≤ q → q < p → ¬ OccursAt needle hay q) ∧
      (findFrom hay needle start = none ↔ ∀ p, start ≤ p → ¬ OccursAt needle hay p) ∧
      (hay.length < start + needle.length → findFrom hay needle start = none) ∧
      ∀ p tail, findFrom hay needle start = some p →
        findFrom (hay ++ tail) needle start = some p) ∧
    ∀ json key suffix : String,
      let quoted := encode ("\"" ++ key ++ "\"" ++ suffix)
      let behind (text : String) := after? (encode text) (encode key) (encode suffix)
      (∀ e, behind json = some e ↔
        ∃ p, FirstFrom quoted (encode json) 0 p ∧ e = p + quoted.length) ∧
      (behind json = none ↔ ∀ p, ¬ OccursAt quoted (encode json) p) ∧
      ∀ e more, behind json = some e → behind (json ++ more) = some e := by
  refine ⟨fun hay needle start nonempty => ⟨fun p => ?_, findFrom_eq_none_iff nonempty,
    findFrom_of_short nonempty, fun p tail found => findFrom_append nonempty found tail⟩,
    fun json key suffix => ?_⟩
  · rw [findFrom_eq_some_iff nonempty]
    exact ⟨fun first => ⟨first.le, first.occurs, first.least⟩,
      fun ⟨le, occurs, least⟩ => ⟨le, occurs, least⟩⟩
  · intro quoted behind
    have pasted : pattern (encode key) (encode suffix) = quoted := pattern_encode key suffix
    refine ⟨fun e => ?_, ?_, fun e more found => ?_⟩
    · rw [← pasted]
      exact after?_eq_some_iff
    · have none : behind json = none ↔ findFrom (encode json) quoted 0 = none := by
        rw [← pasted]
        exact Option.map_eq_none_iff
      rw [none, findFrom_eq_none_iff (pasted ▸ pattern_ne_nil _ _)]
      exact forall_congr' fun p => ⟨fun absent => absent (Nat.zero_le p), fun absent _ => absent⟩
    · show after? (encode (json ++ more)) _ _ = some e
      rw [encode_append]
      exact after?_append found (encode more)

/-- A needle that overlaps itself is found again inside of its first occurrence, and the
quoted key of a longer text where it was. -/
theorem search_exact_overlapping :
    let hay := encode "abababa"
    let needle := encode "aba"
    needle ≠ [] ∧ findFrom hay needle 0 = some 0 ∧ findFrom hay needle 1 = some 2 ∧
      findFrom hay needle 5 = none ∧
      after? (encode ("\x7b\"a\":1," ++ "\"a\":2\x7d")) (encode "a") (encode ":") = some 5 := by
  intro hay needle
  obtain ⟨search, quoted⟩ := search_exact
  have nonempty : needle ≠ [] := by decide
  refine ⟨nonempty, ?_, ?_, ?_, (quoted "\x7b\"a\":1," "a" ":").2.2 5 _ (by decide)⟩
  · exact ((search hay needle 0 nonempty).1 0).mpr ⟨by decide, by decide, fun q _ => by omega⟩
  · refine ((search hay needle 1 nonempty).1 2).mpr ⟨by decide, by decide, fun q le before => ?_⟩
    have one : q = 1 := by omega
    subst one
    decide
  · exact (search hay needle 5 nonempty).2.2.1 (by decide)

end Scan

end HostBoundary
