import Mathlib.Data.List.Induction
import HostBoundary.Proofs.Descriptions
import HostBoundary.Proofs.TextCuts

/-!
# What the scan for an object takes

The scan for an object looks for the quoted key with a colon and an opening brace,
and then counts braces.  It knows nothing of strings and of escapes, so the text
may be anything.  Still there is a simple description of what it takes: of the text
from that brace on, the *shortest front that closes as many braces as it opens*, and
all of it when there is no such front.

## Counting, and counts

The scan keeps one number, the depth.  The description speaks of two counts for each
front of the text.  They meet in `StaysOpen`: as long as every front leaves a brace
open, the depth is the difference of the counts, and it is not zero.  A text either
stays open to its end or has a first closing brace at which it does not
(`StaysOpen.or_closes`), and there both descriptions end the object.

## Bytes, and characters

The scan works on bytes, and the description speaks of characters.  What occurs in
the bytes of a text occurs in the text, if it begins and ends with an ASCII
character (`Utf8.behind?_spell_iff`); the quoted key with its colon and brace does,
whatever the key is.

## Main results

* `Scan.object_of_place` — the two ways in which the count of braces ends.
* `Scan.object_shortest` — the scan takes the shortest balanced front.
-/

namespace HostBoundary

open Bytes Utf8

/-! ## Occurrences in a text -/

/-- The part stands behind `before` and in front of `after`, and nowhere earlier. -/
structure FirstPlace (part text before after : List Char) : Prop where
  whole : text = before ++ part ++ after
  first : ∀ f b, text = f ++ part ++ b → before.length ≤ f.length

namespace Utf8

section Occurrences

variable {s inner : List Char} {c d : Char} {x y : UInt8} {front back : Bytes}

/-- A position between characters divides the spelling as it divides the text. -/
theorem split_of_boundary (whole : spell s = front ++ back)
    (between : front.length ∈ Scan.boundaries s) :
    ∃ before after, s = before ++ after ∧ spell before = front ∧ spell after = back := by
  obtain ⟨before, after, rfl, length⟩ := Scan.mem_boundaries_iff.mp between
  rw [spell_append] at whole
  obtain ⟨first, rest⟩ := List.append_inj whole length
  exact ⟨before, after, rfl, first, rest⟩

variable (begins : String.utf8EncodeChar c = [x]) (beginsAscii : x < 128)
  (ends : String.utf8EncodeChar d = [y]) (endsAscii : y < 128)

include begins beginsAscii ends endsAscii

/-- **What occurs in the bytes of a text occurs in the text**, when it begins and ends
with an ASCII character. -/
theorem chars_of_occurrence
    (whole : spell s = front ++ spell (c :: (inner ++ [d])) ++ back) :
    ∃ before after, s = before ++ (c :: (inner ++ [d])) ++ after ∧
      spell before = front ∧ spell after = back := by
  have first : spell (c :: (inner ++ [d])) = x :: spell (inner ++ [d]) := by
    rw [spell_cons, begins]
    rfl
  have last : spell (c :: (inner ++ [d])) = spell (c :: inner) ++ [y] := by
    rw [← List.cons_append, spell_append, spell_cons d, ends]
    rfl
  -- the text is divided in front of the part, and behind it
  have atFront : spell s = front ++ x :: (spell (inner ++ [d]) ++ back) := by
    rw [whole, first, List.append_assoc, List.cons_append]
  have atBack : spell s = (front ++ spell (c :: inner)) ++ y :: back := by
    rw [whole, last]
    simp only [List.append_assoc, List.singleton_append]
  obtain ⟨before, rest, split, spelled, -⟩ :=
    split_of_boundary atFront (Scan.boundary_of_ascii atFront beginsAscii).1
  have behind : (front ++ spell (c :: (inner ++ [d]))).length ∈ Scan.boundaries s := by
    have length : (front ++ spell (c :: (inner ++ [d]))).length
        = (front ++ spell (c :: inner)).length + 1 := by
      rw [last, ← List.append_assoc, List.length_append, List.length_singleton]
    rw [length]
    exact (Scan.boundary_of_ascii atBack endsAscii).2
  obtain ⟨upTo, after, split', spelled', spelledBack⟩ := split_of_boundary whole behind
  have shorter : (spell before).length ≤ (spell upTo).length := by
    rw [spelled, spelled', List.length_append]
    exact Nat.le_add_right _ _
  obtain ⟨part, rfl⟩ := Scan.prefix_of_spell_le ⟨rest, split.symm⟩ ⟨after, split'.symm⟩ shorter
  rw [spell_append, spelled] at spelled'
  obtain rfl := spell_injective (List.append_cancel_left spelled')
  exact ⟨before, after, split', spelled, spelledBack⟩

/-- **A search in the bytes finds the first place in the text.** -/
theorem behind?_spell_iff :
    behind? (spell (c :: (inner ++ [d]))) (spell s) = some back ↔
      ∃ before after, FirstPlace (c :: (inner ++ [d])) s before after ∧ spell after = back := by
  have nonempty : spell (c :: (inner ++ [d])) ≠ [] := by
    rw [spell_cons, begins]
    exact List.cons_ne_nil _ _
  rw [behind?_eq_some_iff nonempty]
  constructor
  · rintro ⟨front, whole, least⟩
    obtain ⟨before, after, split, rfl, spelled⟩ :=
      chars_of_occurrence begins beginsAscii ends endsAscii whole
    refine ⟨before, after, ⟨split, ?_⟩, spelled⟩
    intro f b other
    -- an occurrence in the text is one in the bytes, so it is not earlier
    have shorter : (spell before).length ≤ (spell f).length := by
      apply least (spell f) (spell b)
      rw [other, spell_append, spell_append]
    have here : before <+: s := ⟨_, by rw [split, List.append_assoc]⟩
    have there : f <+: s := ⟨_, by rw [other, List.append_assoc]⟩
    exact (Scan.prefix_of_spell_le here there shorter).length_le
  · rintro ⟨before, after, place, rfl⟩
    refine ⟨spell before, ?_, ?_⟩
    · rw [place.whole, spell_append, spell_append]
    · intro f b other
      obtain ⟨f, b, split, rfl, -⟩ := chars_of_occurrence begins beginsAscii ends endsAscii other
      have here : before <+: s := ⟨_, by rw [place.whole, List.append_assoc]⟩
      have there : f <+: s := ⟨_, by rw [split, List.append_assoc]⟩
      obtain ⟨more, rfl⟩ := List.prefix_of_prefix_length_le here there (place.first f b split)
      rw [spell_append, List.length_append]
      exact Nat.le_add_right _ _

end Occurrences

end Utf8

/-! ## Balanced fronts -/

/-- A front of the text, not empty, that closes as many braces as it opens. -/
structure BalancedFront (text front : List Char) : Prop where
  begins : front <+: text
  nonempty : front ≠ []
  balanced : front.count '}' = front.count '{'

/-- The shortest of them. -/
structure ShortestBalanced (text front : List Char) : Prop
    extends BalancedFront text front where
  shortest : ∀ other, BalancedFront text other → front.length ≤ other.length

/-- What is taken of a text that begins with an opening brace. -/
inductive ObjectTaken (text : List Char) : List Char → Prop
  /-- Its shortest balanced front. -/
  | closed {front : List Char} (shortest : ShortestBalanced text front) : ObjectTaken text front
  /-- All of it, if it has none. -/
  | unterminated (never : ∀ front, ¬ BalancedFront text front) : ObjectTaken text text

/-- Where a text stays open behind an opening brace, so do all its fronts. -/
theorem StaysOpen.count_lt_of_prefix {s front : List Char} (opened : StaysOpen 1 s)
    (begins : front <+: '{' :: s) (nonempty : front ≠ []) :
    front.count '}' < front.count '{' := by
  cases front with
  | nil => exact absurd rfl nonempty
  | cons c front =>
    obtain ⟨rfl, inside⟩ := List.cons_prefix_cons.mp begins
    have here := opened front inside
    rw [List.count_cons_of_ne (by decide), List.count_cons_self]
    omega

/-- **A text stays open to its end, or up to a first brace that closes it.** -/
theorem StaysOpen.or_closes {depth : Nat} (inside : 0 < depth) (s : List Char) :
    StaysOpen depth s ∨ ∃ inner after, s = inner ++ '}' :: after ∧ StaysOpen depth inner ∧
      inner.count '}' + 1 = depth + inner.count '{' := by
  -- from the end of the text, since fronts of a longer text are those of the shorter one
  induction s using List.reverseRecOn with
  | nil =>
    left
    intro front begins
    rw [List.prefix_nil.mp begins]
    exact inside
  | append_singleton t c ih =>
    rcases ih with opened | ⟨inner, after, rfl, opened, closes⟩
    · by_cases last : c = '}' ∧ t.count '}' + 1 = depth + t.count '{'
      · obtain ⟨rfl, closes⟩ := last
        exact .inr ⟨t, [], rfl, opened, closes⟩
      · left
        intro front begins
        rcases List.prefix_concat_iff.mp begins with rfl | shorter
        · have here := opened t (List.prefix_refl t)
          rw [List.count_append, List.count_append]
          by_cases closing : c = '}'
          · subst closing
            have deeper : t.count '}' + 1 ≠ depth + t.count '{' := fun closes => last ⟨rfl, closes⟩
            rw [List.count_singleton_self]
            omega
          · rw [List.count_eq_zero.mpr (mt List.mem_singleton.mp (Ne.symm closing))]
            omega
        · exact opened front shorter
    · exact .inr ⟨inner, after ++ [c], by simp, opened, closes⟩

/-- The front up to the brace that closes the first one is the shortest balanced one. -/
theorem ShortestBalanced.of_closes {inner : List Char} (opened : StaysOpen 1 inner)
    (closes : inner.count '}' = inner.count '{') (after : List Char) :
    ShortestBalanced ('{' :: (inner ++ '}' :: after)) ('{' :: (inner ++ ['}'])) where
  begins := ⟨after, by simp⟩
  nonempty := List.cons_ne_nil _ _
  balanced := by
    rw [List.count_cons_of_ne (by decide), List.count_cons_self, List.count_append,
      List.count_append, List.count_singleton_self, closes]
    rfl
  shortest := by
    intro other front
    apply Nat.le_of_not_lt
    intro shorter
    -- a shorter front ends inside, where a brace is still open
    have inside : other <+: '{' :: inner := by
      have begins : '{' :: inner <+: '{' :: (inner ++ '}' :: after) := ⟨'}' :: after, rfl⟩
      apply List.prefix_of_prefix_length_le front.begins begins
      rw [List.length_cons, List.length_append, List.length_singleton] at shorter
      rw [List.length_cons]
      omega
    exact absurd front.balanced (Nat.ne_of_lt (opened.count_lt_of_prefix inside front.nonempty))

/-! ## The scan -/

namespace Scan

variable {json key : String} {before after inner : List Char}

/-- What the scan looks for: the quoted key, a colon and an opening brace. -/
def opening (key : String) : List Char := '"' :: (key.toList ++ ['"', ':'] ++ ['{'])

theorem spell_opening (key : String) :
    spell (opening key) = pattern (encode key) [colon, openBrace] := by
  rw [opening, List.append_assoc, spell_cons, spell_append, ← encode_eq_spell]
  rfl

/-- The opening is found in the bytes where it stands in the text. -/
theorem behind?_opening_iff {bytes : Bytes} :
    behind? (pattern (encode key) [colon, openBrace]) (encode json) = some bytes ↔
      ∃ before after, FirstPlace (opening key) json.toList before after ∧ spell after = bytes := by
  have mark : String.utf8EncodeChar '"' = [quote] := rfl
  have brace : String.utf8EncodeChar '{' = [openBrace] := rfl
  rw [← spell_opening, encode_eq_spell]
  exact behind?_spell_iff mark (by decide) brace (by decide)

/-- The count of braces runs to the end of a text that stays open. -/
theorem balanced_of_staysOpen (opened : StaysOpen 1 inner) :
    balanced 0 (openBrace :: spell inner) = spell ('{' :: inner) := by
  have whole := balanced_spell opened []
  rw [List.append_nil, balanced, List.append_nil] at whole
  show openBrace :: balanced 1 (spell inner) = openBrace :: spell inner
  rw [whole]

/-- It ends at the first brace behind which none is open. -/
theorem balanced_of_closes (opened : StaysOpen 1 inner)
    (closes : inner.count '}' = inner.count '{') (rest : List Char) :
    balanced 0 (openBrace :: spell (inner ++ '}' :: rest)) = spell ('{' :: (inner ++ ['}'])) := by
  have depth : 1 + inner.count '{' - inner.count '}' = 1 := by omega
  have last : balanced 1 (spell ('}' :: rest)) = spell ['}'] := rfl
  have whole := balanced_spell opened (spell ('}' :: rest))
  rw [depth, last] at whole
  show openBrace :: balanced 1 (spell (inner ++ '}' :: rest)) = openBrace :: spell (inner ++ ['}'])
  rw [spell_append, whole, spell_append]

/-- A slice that spells a text is that text. -/
theorem toList_object {part : List Char}
    (slice : objectSlice (encode json) (encode key) = spell part) :
    (object json key).toList = part := by
  rw [object, slice, ← encode_ofList, decodeOrEmpty_encode, String.toList_ofList]

/-- **The count of braces ends in two ways**: at the end of a text that stays open, or at
the first brace behind which none is open. -/
theorem object_of_place (place : FirstPlace (opening key) json.toList before after) :
    (StaysOpen 1 after ∧ (object json key).toList = '{' :: after) ∨
    ∃ inner rest, after = inner ++ '}' :: rest ∧ StaysOpen 1 inner ∧
      inner.count '}' = inner.count '{' ∧
      (object json key).toList = '{' :: (inner ++ ['}']) := by
  have slice : objectSlice (encode json) (encode key) = balanced 0 (openBrace :: spell after) := by
    rw [objectSlice_eq, behind?_opening_iff.mpr ⟨before, after, place, rfl⟩]
    rfl
  rcases StaysOpen.or_closes Nat.one_pos after with opened | ⟨inner, rest, rfl, opened, closes⟩
  · exact .inl ⟨opened, toList_object (slice.trans (balanced_of_staysOpen opened))⟩
  · have closes : inner.count '}' = inner.count '{' := by omega
    exact .inr ⟨inner, rest, rfl, opened, closes,
      toList_object (slice.trans (balanced_of_closes opened closes rest))⟩

/-- Nothing is taken without an opening. -/
theorem object_of_missing
    (missing : behind? (pattern (encode key) [colon, openBrace]) (encode json) = none) :
    object json key = "" := by
  rw [object, objectSlice_eq, missing]
  rfl

/-- The opening occurs where a search finds it. -/
theorem opening_infix_iff :
    opening key <:+: json.toList ↔
      ∃ before after, FirstPlace (opening key) json.toList before after := by
  constructor
  · rintro ⟨f, b, whole⟩
    cases found : behind? (pattern (encode key) [colon, openBrace]) (encode json) with
    | none =>
      have occurs : pattern (encode key) [colon, openBrace] <:+: encode json := by
        refine ⟨spell f, spell b, ?_⟩
        rw [← spell_opening, ← spell_append, ← spell_append, whole, encode_eq_spell]
      exact absurd occurs ((behind?_eq_none_iff (pattern_ne_nil _ _)).mp found)
    | some bytes =>
      obtain ⟨before, after, place, -⟩ := behind?_opening_iff.mp found
      exact ⟨before, after, place⟩
  · rintro ⟨before, after, place⟩
    exact ⟨before, after, place.whole.symm⟩

/-- What is found in a text is found in every longer one. -/
theorem behind?_opening_append (more : String)
    (place : FirstPlace (opening key) json.toList before after) :
    behind? (pattern (encode key) [colon, openBrace]) (encode (json ++ more))
      = some (spell (after ++ more.toList)) := by
  have found := behind?_opening_iff.mpr ⟨before, after, place, rfl⟩
  rw [encode_append, spell_append, ← encode_eq_spell]
  exact behind?_append_of_some (pattern_ne_nil _ _) found

/-- What is taken begins with the brace of the opening. -/
theorem brace_prefix_object (place : FirstPlace (opening key) json.toList before after) :
    ['{'] <+: (object json key).toList := by
  rcases object_of_place place with ⟨-, taken⟩ | ⟨inner, rest, -, -, -, taken⟩
  · rw [taken]
    exact ⟨after, rfl⟩
  · rw [taken]
    exact ⟨inner ++ ['}'], rfl⟩

/-- Nothing is taken exactly where the opening does not occur. -/
theorem object_eq_empty_iff : object json key = "" ↔ ¬ opening key <:+: json.toList := by
  rw [opening_infix_iff]
  constructor
  · rintro empty ⟨before, after, place⟩
    have begins := brace_prefix_object place
    rw [empty] at begins
    exact absurd (List.prefix_nil.mp begins) (List.cons_ne_nil _ _)
  · intro nowhere
    cases found : behind? (pattern (encode key) [colon, openBrace]) (encode json) with
    | none => exact object_of_missing found
    | some bytes =>
      obtain ⟨before, after, place, -⟩ := behind?_opening_iff.mp found
      exact absurd ⟨before, after, place⟩ nowhere

theorem exists_place (nonempty : object json key ≠ "") :
    ∃ before after, FirstPlace (opening key) json.toList before after :=
  opening_infix_iff.mp (Classical.not_not.mp (mt object_eq_empty_iff.mpr nonempty))

/-- What is taken behind the first opening is the shortest balanced front. -/
theorem objectTaken (place : FirstPlace (opening key) json.toList before after) :
    ObjectTaken ('{' :: after) (object json key).toList := by
  rcases object_of_place place with ⟨opened, taken⟩ | ⟨inner, rest, rfl, opened, closes, taken⟩
  · rw [taken]
    refine .unterminated ?_
    intro front balanced
    exact absurd balanced.balanced
      (Nat.ne_of_lt (opened.count_lt_of_prefix balanced.begins balanced.nonempty))
  · rw [taken]
    exact .closed (.of_closes opened closes rest)

/-- Every front of what is taken leaves a brace open, but for the whole. -/
theorem open_of_proper_front {front : List Char} (begins : front <+: (object json key).toList)
    (nonempty : front ≠ []) (proper : front ≠ (object json key).toList) :
    front.count '}' < front.count '{' := by
  have found : object json key ≠ "" := by
    intro empty
    rw [empty] at begins
    exact nonempty (List.prefix_nil.mp begins)
  obtain ⟨before, after, place⟩ := exists_place found
  rcases object_of_place place with ⟨opened, taken⟩ | ⟨inner, rest, rfl, opened, -, taken⟩
  · rw [taken] at begins
    exact opened.count_lt_of_prefix begins nonempty
  · rw [taken, ← List.cons_append] at begins proper
    rcases List.prefix_concat_iff.mp begins with whole | inside
    · exact absurd whole proper
    · exact opened.count_lt_of_prefix inside nonempty

/-- An object that was closed is not changed by what follows in the text. -/
theorem object_append (found : object json key ≠ "")
    (closed : (object json key).toList.count '}' = (object json key).toList.count '{')
    (more : String) : object (json ++ more) key = object json key := by
  obtain ⟨before, after, place⟩ := exists_place found
  apply String.toList_inj.mp
  rcases object_of_place place with ⟨opened, taken⟩ | ⟨inner, rest, rfl, opened, closes, taken⟩
  · rw [taken] at closed
    have front := opened.count_lt_of_prefix (List.prefix_refl ('{' :: after)) (List.cons_ne_nil _ _)
    exact absurd closed (Nat.ne_of_lt front)
  · rw [taken]
    apply toList_object
    have longer := behind?_opening_append more place
    rw [List.append_assoc, List.cons_append] at longer
    rw [objectSlice_eq, longer]
    exact balanced_of_closes opened closes (rest ++ more.toList)

/-- **The scan for an object takes the shortest balanced front** of the text from the
brace of the first opening on, and all of that text when it has no balanced front.
Nothing is taken exactly where there is no opening.  What is taken begins with an
opening brace, each of its proper fronts leaves a brace open, and an object that was
closed is not changed by what follows. -/
theorem object_shortest (json key : String) :
    (object json key = "" ↔ ¬ opening key <:+: json.toList) ∧
    (∀ before after, FirstPlace (opening key) json.toList before after →
      ObjectTaken ('{' :: after) (object json key).toList) ∧
    (object json key ≠ "" → ['{'] <+: (object json key).toList) ∧
    (∀ front, front <+: (object json key).toList → front ≠ [] →
      front ≠ (object json key).toList → front.count '}' < front.count '{') ∧
    (object json key ≠ "" →
      (object json key).toList.count '}' = (object json key).toList.count '{' →
      ∀ more, object (json ++ more) key = object json key) := by
  refine ⟨object_eq_empty_iff, fun _ _ => objectTaken, ?_, fun _ => open_of_proper_front,
    object_append⟩
  intro found
  obtain ⟨before, after, place⟩ := exists_place found
  exact brace_prefix_object place

/-- An object with a closing brace inside of a string, under a key of two bytes. -/
def bracedText : String := "\x7b\"ß\":\x7b\"a\":\"\x7d\"\x7d\x7d"

/-- The object ends inside of the string, whatever follows. -/
theorem object_shortest_braced :
    FirstPlace (opening "ß") bracedText.toList ['{'] "\"a\":\"\x7d\"\x7d\x7d".toList ∧
    ShortestBalanced ('{' :: "\"a\":\"\x7d\"\x7d\x7d".toList) "\x7b\"a\":\"\x7d".toList ∧
    ∀ more, object (bracedText ++ more) "ß" = "\x7b\"a\":\"\x7d" := by
  have place : FirstPlace (opening "ß") bracedText.toList ['{']
      "\"a\":\"\x7d\"\x7d\x7d".toList := by
    refine ⟨by decide, ?_⟩
    intro f b whole
    cases f with
    | nil =>
      have heads : some '{' = some '"' := congrArg List.head? whole
      exact absurd heads (by decide)
    | cons c f => exact Nat.succ_le_succ (Nat.zero_le _)
  have taken : object bracedText "ß" = "\x7b\"a\":\"\x7d" := by decide +kernel
  obtain ⟨-, shortest, -, -, stable⟩ := object_shortest bracedText "ß"
  have shown := shortest _ _ place
  rw [taken] at shown stable
  refine ⟨place, ?_, stable (by decide) (by decide)⟩
  generalize whole : "\x7b\"a\":\"\x7d".toList = part at shown ⊢
  cases shown with
  | closed front => exact front
  | unterminated never => exact absurd whole (by decide)

end Scan

end HostBoundary
