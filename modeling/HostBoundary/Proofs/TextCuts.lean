import HostBoundary.Proofs.Search
import HostBoundary.Proofs.Spelling

/-!
# Cutting texts at positions

The scans compute positions on bytes and cut texts at them.  Cutting a text is
partial: the ends have to be in order, inside the text, and between characters.
Here a cut is an operation that checks this, and a failed check is a fault
(`Guarded.slice`).

## Why the positions are between characters

A position of a scan stands before or behind a byte below 128, or at an end of
the text.  Such a byte is a character of its own, so both its sides are between
characters (`boundary_of_ascii`).  This is all that is needed about UTF-8: to
skip bytes below 128, and to skip up to one, stays between characters.

## Main results

* `Scan.boundary_of_ascii` — both sides of a byte below 128 are between
  characters.
* `Scan.Guarded.slice_eq_ok_iff` — a cut that passes its check is a part of the
  text.
* `Scan.Guarded.slice_skipWhile`, `Scan.Guarded.find_eq` — skipping and searching
  from between two characters has no fault.
-/

namespace HostBoundary

open Bytes Utf8

namespace Scan

/-! ## Between characters -/

/-- The positions between the characters, the two ends included. -/
def boundaries : List Char → List Nat
  | [] => [0]
  | c :: s => 0 :: (boundaries s).map ((String.utf8EncodeChar c).length + ·)

theorem zero_mem_boundaries (s : List Char) : 0 ∈ boundaries s := by
  cases s with
  | nil => exact List.mem_singleton_self 0
  | cons c s => exact List.mem_cons_self

/-- A position is between characters when whole characters stand in front of it. -/
theorem mem_boundaries_iff {s : List Char} {position : Nat} :
    position ∈ boundaries s ↔
      ∃ front back, s = front ++ back ∧ (spell front).length = position := by
  induction s generalizing position with
  | nil =>
    rw [boundaries, List.mem_singleton]
    constructor
    · rintro rfl
      exact ⟨[], [], rfl, rfl⟩
    · rintro ⟨front, back, whole, rfl⟩
      rw [(List.append_eq_nil_iff.mp whole.symm).1]
      rfl
  | cons c s ih =>
    rw [boundaries, List.mem_cons, List.mem_map]
    constructor
    · rintro (rfl | ⟨rest, mem, rfl⟩)
      · exact ⟨[], c :: s, rfl, rfl⟩
      · obtain ⟨front, back, rfl, rfl⟩ := ih.mp mem
        refine ⟨c :: front, back, rfl, ?_⟩
        rw [spell_cons, List.length_append]
    · rintro ⟨front, back, whole, rfl⟩
      cases front with
      | nil => exact .inl rfl
      | cons d front =>
        obtain ⟨rfl, rfl⟩ := List.cons.inj whole
        refine .inr ⟨(spell front).length, ih.mpr ⟨front, back, rfl, rfl⟩, ?_⟩
        rw [spell_cons, List.length_append]

theorem length_mem_boundaries (s : List Char) : (spell s).length ∈ boundaries s :=
  mem_boundaries_iff.mpr ⟨s, [], (List.append_nil s).symm, rfl⟩

/-- Of two fronts of a text, the one with fewer bytes is a front of the other. -/
theorem prefix_of_spell_le {s front upTo : List Char} (begins : front <+: s) (begins' : upTo <+: s)
    (shorter : (spell front).length ≤ (spell upTo).length) : front <+: upTo := by
  rcases List.prefix_or_prefix_of_prefix begins begins' with longer | ⟨more, rfl⟩
  · exact longer
  · have none : spell more = spell [] := by
      rw [spell_append, List.length_append] at shorter
      exact List.length_eq_zero_iff.mp (by omega)
    obtain rfl := spell_injective none
    exact ⟨[], by simp⟩

/-- **Both sides of a byte below 128 are between characters.** -/
theorem boundary_of_ascii {s : List Char} {front back : Bytes} {b : UInt8}
    (whole : spell s = front ++ b :: back) (small : b < 128) :
    front.length ∈ boundaries s ∧ front.length + 1 ∈ boundaries s := by
  induction s generalizing front with
  | nil => cases front <;> cases whole
  | cons c s ih =>
    rw [spell_cons] at whole
    rcases List.append_eq_append_iff.mp whole with ⟨more, rfl, rest⟩ | ⟨more, bytes, rest⟩
    · -- the character stands in front of the byte
      obtain ⟨before, behind⟩ := ih rest
      rw [List.length_append, Nat.add_assoc]
      exact ⟨List.mem_cons_of_mem _ (List.mem_map_of_mem before),
        List.mem_cons_of_mem _ (List.mem_map_of_mem behind)⟩
    · cases more with
      | nil =>
        rw [List.append_nil] at bytes
        obtain ⟨before, behind⟩ := @ih [] rest.symm
        rw [← bytes]
        exact ⟨List.mem_cons_of_mem _ (List.mem_map_of_mem before),
          List.mem_cons_of_mem _ (List.mem_map_of_mem behind)⟩
      | cons d more =>
        -- the byte belongs to the character, so it is all of it
        obtain ⟨rfl, -⟩ := List.cons.inj rest
        have alone := eq_singleton_of_mem (c := c) (b := b) (by simp [bytes]) small
        have empty : front = [] := by
          have length := congrArg List.length (bytes.symm.trans alone)
          simp only [List.length_append, List.length_cons, List.length_nil] at length
          exact List.length_eq_zero_iff.mp (by omega)
        subst empty
        refine ⟨zero_mem_boundaries _, List.mem_cons_of_mem _ ?_⟩
        rw [alone]
        exact List.mem_map_of_mem (zero_mem_boundaries s)

namespace Guarded

/-! ## Operations with checks -/

/-- What a scan can trip over. -/
inductive Fault where
  /-- A cut whose ends are out of order, outside the text or inside a character. -/
  | slice (start stop : Nat)
  /-- A count that is decreased at zero. -/
  | underflow
deriving DecidableEq, Repr

/-- The text between two positions. -/
def slice (text : String) (start stop : Nat) : Except Fault String :=
  if start ≤ stop ∧ stop ≤ (encode text).length ∧
      start ∈ boundaries text.toList ∧ stop ∈ boundaries text.toList then
    .ok (decodeOrEmpty (((encode text).take stop).drop start))
  else .error (.slice start stop)

/-- The number before a number. -/
def decrease (n : Nat) : Except Fault Nat := if n = 0 then .error .underflow else .ok (n - 1)

/-- The first position from `start` on whose byte does not pass. -/
def skipWhile (text : String) (passes : UInt8 → Bool) (start : Nat) : Nat :=
  start + (((encode text).drop start).takeWhile passes).length

/-- The first occurrence of a needle in the part of the text from `start` on. -/
def find (text : String) (needle : Bytes) (start : Nat) : Except Fault (Option Nat) :=
  if needle = [] ∨ (encode text).length < start then .ok none
  else do
    let part ← slice text start (encode text).length
    return searchAt needle start (encode part)

variable {text : String} {back needle : Bytes} {start stop p : Nat} {b : UInt8}

/-! ## Positions -/

theorem le_length_of_mem (mem : start ∈ boundaries text.toList) : start ≤ (encode text).length := by
  obtain ⟨front, back, whole, rfl⟩ := mem_boundaries_iff.mp mem
  rw [encode_eq_spell, whole, spell_append, List.length_append]
  exact Nat.le_add_right _ _

theorem length_encode_mem : (encode text).length ∈ boundaries text.toList := by
  rw [encode_eq_spell]
  exact length_mem_boundaries _

/-- Both sides of a position that holds a byte below 128 are between characters. -/
theorem boundary_of_drop (here : (encode text).drop p = b :: back) (small : b < 128) :
    p ∈ boundaries text.toList ∧ p + 1 ∈ boundaries text.toList := by
  have inside : p ≤ (encode text).length := by
    apply Nat.le_of_not_lt
    intro beyond
    rw [List.drop_eq_nil_of_le (Nat.le_of_lt beyond)] at here
    cases here
  have whole : spell text.toList = (encode text).take p ++ b :: back := by
    rw [← here, List.take_append_drop, encode_eq_spell]
  have sides := boundary_of_ascii whole small
  rwa [List.length_take, Nat.min_eq_left inside] at sides

/-! ## Cuts -/

/-- A cut between two characters. -/
theorem slice_of_mem {length : Nat} (before : start ∈ boundaries text.toList)
    (behind : start + length ∈ boundaries text.toList) :
    slice text start (start + length)
      = .ok (decodeOrEmpty (((encode text).drop start).take length)) := by
  rw [slice, if_pos ⟨Nat.le_add_right _ _, le_length_of_mem behind, before, behind⟩,
    List.drop_take, Nat.add_sub_cancel_left]

/-- **A cut that passes its check is a part of the text**, and the text stands
around it. -/
theorem slice_eq_ok_iff {part : String} :
    slice text start stop = .ok part ↔
      ∃ before after, text = before ++ part ++ after ∧ (encode before).length = start ∧
        (encode (before ++ part)).length = stop := by
  constructor
  · intro cut
    rw [slice] at cut
    split at cut
    · next passes =>
      obtain ⟨ordered, -, atStart, atStop⟩ := passes
      obtain ⟨front, behind, whole, rfl⟩ := mem_boundaries_iff.mp atStart
      obtain ⟨upTo, after, whole', rfl⟩ := mem_boundaries_iff.mp atStop
      -- of the two fronts of the text, the first is the shorter one
      obtain ⟨middle, rfl⟩ := prefix_of_spell_le ⟨behind, whole.symm⟩ ⟨after, whole'.symm⟩ ordered
      have bytes : ((encode text).take (spell (front ++ middle)).length).drop (spell front).length
          = encode (String.ofList middle) := by
        rw [encode_eq_spell, whole', spell_append (front ++ middle), List.take_left, spell_append,
          List.drop_left, encode_ofList]
      rw [bytes, decodeOrEmpty_encode] at cut
      cases cut
      refine ⟨String.ofList front, String.ofList after, ?_, ?_, ?_⟩
      · rw [← String.ofList_append, ← String.ofList_append, ← whole', String.ofList_toList]
      · rw [encode_ofList]
      · rw [← String.ofList_append, encode_ofList]
    · cases cut
  · rintro ⟨before, after, rfl, rfl, rfl⟩
    have atStart : (encode before).length ∈ boundaries (before ++ part ++ after).toList :=
      mem_boundaries_iff.mpr ⟨before.toList, (part ++ after).toList, by simp, by
        rw [encode_eq_spell]⟩
    have atStop : (encode before).length + (encode part).length
        ∈ boundaries (before ++ part ++ after).toList :=
      mem_boundaries_iff.mpr ⟨(before ++ part).toList, after.toList, by simp, by
        rw [← encode_eq_spell, encode_append, List.length_append]⟩
    rw [encode_append before part, List.length_append, slice_of_mem atStart atStop,
      encode_append, encode_append, List.append_assoc, List.drop_left, List.take_left,
      decodeOrEmpty_encode]

theorem encode_of_slice {part : String} (cut : slice text start stop = .ok part) :
    encode part = ((encode text).take stop).drop start := by
  obtain ⟨before, after, rfl, rfl, rfl⟩ := slice_eq_ok_iff.mp cut
  rw [encode_append (before ++ part) after, List.take_left, encode_append before part,
    List.drop_left]

/-- From between two characters on, the rest of the text is cut off. -/
theorem slice_to_end (mem : start ∈ boundaries text.toList) :
    ∃ part, slice text start (encode text).length = .ok part ∧
      encode part = (encode text).drop start := by
  have ends : start + ((encode text).length - start) = (encode text).length :=
    Nat.add_sub_of_le (le_length_of_mem mem)
  have cut := slice_of_mem mem (ends ▸ length_encode_mem)
  rw [ends] at cut
  refine ⟨_, cut, ?_⟩
  rw [encode_of_slice cut, List.take_length]

/-! ## Skipping -/

theorem drop_skipWhile (text : String) (passes : UInt8 → Bool) (start : Nat) :
    (encode text).drop (skipWhile text passes start)
      = ((encode text).drop start).dropWhile passes := by
  rw [skipWhile, ← List.drop_drop]
  exact drop_length_takeWhile _ _

/-- Skipping bytes below 128 ends between characters. -/
theorem skipWhile_mem_of_ascii (mem : start ∈ boundaries text.toList) {passes : UInt8 → Bool}
    (ascii : ∀ b, passes b = true → b < 128) :
    skipWhile text passes start ∈ boundaries text.toList := by
  rw [skipWhile]
  rcases List.eq_nil_or_concat (((encode text).drop start).takeWhile passes) with
    none | ⟨before, last, concat⟩
  · rw [none]
    exact mem
  · -- the last byte that was skipped is a character of its own
    have passed : passes last = true := by
      have all : (((encode text).drop start).takeWhile passes).all passes = true :=
        List.all_takeWhile
      exact List.all_eq_true.mp all last (by simp [concat])
    have split := (@List.takeWhile_append_dropWhile _ passes ((encode text).drop start)).symm
    rw [concat, List.concat_eq_append, List.append_assoc] at split
    have here := congrArg (List.drop before.length) split
    rw [List.drop_left, List.drop_drop] at here
    rw [concat, List.concat_eq_append, List.length_append, ← Nat.add_assoc]
    exact (boundary_of_drop here (ascii last passed)).2

/-- Skipping up to a quotation mark ends between characters. -/
theorem skipWhile_quote_mem (mem : start ∈ boundaries text.toList) :
    skipWhile text (· != quote) start ∈ boundaries text.toList := by
  have rest := drop_skipWhile text (· != quote) start
  cases behind : ((encode text).drop start).dropWhile (· != quote) with
  | nil =>
    have split := @List.takeWhile_append_dropWhile _ (· != quote) ((encode text).drop start)
    rw [behind, List.append_nil] at split
    rw [skipWhile, split, List.length_drop, Nat.add_sub_of_le (le_length_of_mem mem)]
    exact length_encode_mem
  | cons b back =>
    rw [behind] at rest
    have stopped := List.head?_dropWhile_not (· != quote) ((encode text).drop start)
    rw [behind] at stopped
    have mark : b = quote := by simpa using stopped
    exact (boundary_of_drop rest (mark ▸ by decide)).1

/-- What was skipped is cut out. -/
theorem slice_skipWhile (mem : start ∈ boundaries text.toList) {passes : UInt8 → Bool}
    (stops : skipWhile text passes start ∈ boundaries text.toList) :
    slice text start (skipWhile text passes start)
      = .ok (decodeOrEmpty (((encode text).drop start).takeWhile passes)) := by
  rw [skipWhile, slice_of_mem mem stops, take_length_takeWhile]

/-! ## Searching -/

/-- Positions are counted from where the search is told that it begins. -/
theorem searchAt_add (shift here : Nat) (hay : Bytes) :
    searchAt needle (shift + here) hay = (searchAt needle here hay).map (shift + ·) := by
  induction hay generalizing here with
  | nil => rfl
  | cons b rest ih =>
    rw [searchAt_cons, searchAt_cons, Nat.add_assoc, ih]
    split <;> rfl

/-- A search from between two characters is no fault. -/
theorem find_eq (mem : start ∈ boundaries text.toList) (needle : Bytes) :
    find text needle start = .ok (findFrom (encode text) needle start) := by
  rw [find, findFrom]
  by_cases empty : needle = []
  · rw [if_pos (.inl empty), if_pos (by simpa using empty)]
  · have inside : ¬ (needle = [] ∨ (encode text).length < start) := by
      rw [not_or]
      exact ⟨empty, Nat.not_lt.mpr (le_length_of_mem mem)⟩
    obtain ⟨part, cut, bytes⟩ := slice_to_end mem
    rw [if_neg inside, if_neg (by simpa using empty), cut, ← bytes]
    rfl

/-- Both sides of a byte below 128 that is found are between characters. -/
theorem boundary_of_find (found : findFrom (encode text) [b] start = some p) (small : b < 128) :
    p ∈ boundaries text.toList ∧ p + 1 ∈ boundaries text.toList := by
  obtain ⟨back, whole, rfl⟩ := takeWhile_of_findFrom found
  have here := congrArg (List.drop (((encode text).drop start).takeWhile (· != b)).length) whole
  rw [List.drop_left, List.drop_drop] at here
  exact boundary_of_drop here small

end Guarded

end Scan

end HostBoundary
