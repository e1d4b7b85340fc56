import HostBoundary.Transaction.Receipt

/-!
# What stands behind an occurrence

A search answers a position, since its callers compare positions and continue
from them.  What they take from the text is always what stands *behind* an
occurrence, and that is an inductive notion: it does not change when something
is put in front of the text that the needle does not occur in.  `Bytes.behind?`
is the search in that form, and every scan is rewritten to it once.

## Main results

* `Bytes.behind?_eq_some_iff` — what is found stands behind the first
  occurrence, among all of them.
* `Bytes.drop_findFrom` — the positions of a search are the front of that.
* `Scan.closeSlice_eq`, `Scan.looseSlice_eq`, `Receipt.reportsError_eq`,
  `Scan.stringSlice?_eq`, `Scan.digitsSlice?_eq`, `Scan.boolean?_eq` — the scans in
  terms of what stands behind.
-/

namespace HostBoundary

namespace Bytes

variable {needle hay front back rest : Bytes} {b : UInt8} {start here : Nat}

/-- What stands behind the first occurrence of the needle. -/
def behind? (needle : Bytes) : Bytes → Option Bytes
  | [] => none
  | b :: rest =>
    if needle <+: b :: rest then some ((b :: rest).drop needle.length) else behind? needle rest

/-! ## The first of all occurrences -/

theorem behind?_of_begins (nonempty : needle ≠ []) (back : Bytes) :
    behind? needle (needle ++ back) = some back := by
  cases needle with
  | nil => exact absurd rfl nonempty
  | cons b rest =>
    have front : b :: rest <+: b :: (rest ++ back) := ⟨back, rfl⟩
    rw [List.cons_append, behind?, if_pos front]
    simp

theorem behind?_of_not_begins (absent : ¬ needle <+: b :: rest) :
    behind? needle (b :: rest) = behind? needle rest := by
  rw [behind?, if_neg absent]

/-- What is found stands behind an occurrence, and no occurrence comes before it. -/
theorem behind?_eq_some_iff (nonempty : needle ≠ []) :
    behind? needle hay = some back ↔
      ∃ front, hay = front ++ needle ++ back ∧
        ∀ f b, hay = f ++ needle ++ b → front.length ≤ f.length := by
  induction hay with
  | nil =>
    refine iff_of_false nofun ?_
    rintro ⟨front, whole, -⟩
    simp [nonempty] at whole
  | cons b rest ih =>
    -- the needle stands here, or its first occurrence is that in the rest
    by_cases here : needle <+: b :: rest
    · obtain ⟨tail, split⟩ := here
      rw [← split, behind?_of_begins nonempty]
      constructor
      · rintro ⟨⟩
        exact ⟨[], rfl, fun _ _ _ => Nat.zero_le _⟩
      · rintro ⟨front, whole, least⟩
        have none : front.length ≤ 0 := least [] tail rfl
        have empty : front = [] := List.length_eq_zero_iff.mp (Nat.le_zero.mp none)
        subst empty
        exact congrArg some (List.append_cancel_left whole)
    · rw [behind?_of_not_begins here, ih]
      constructor
      · rintro ⟨front, rfl, least⟩
        refine ⟨b :: front, rfl, ?_⟩
        intro f back whole
        cases f with
        | nil => exact absurd ⟨back, whole.symm⟩ here
        | cons c f =>
          have same := List.cons.inj whole
          exact Nat.succ_le_succ (least f back same.2)
      · rintro ⟨front, whole, least⟩
        cases front with
        | nil => exact absurd ⟨back, whole.symm⟩ here
        | cons c front =>
          have same := List.cons.inj whole
          refine ⟨front, same.2, ?_⟩
          intro f back whole
          exact Nat.le_of_succ_le_succ (least (b :: f) back (congrArg (b :: ·) whole))

/-- Nothing is found exactly where the needle does not occur. -/
theorem behind?_eq_none_iff (nonempty : needle ≠ []) :
    behind? needle hay = none ↔ ¬ needle <:+: hay := by
  induction hay with
  | nil =>
    refine iff_of_true rfl ?_
    rintro ⟨front, back, whole⟩
    simp [nonempty] at whole
  | cons b rest ih =>
    rw [List.infix_cons_iff, not_or]
    by_cases here : needle <+: b :: rest
    · rw [behind?, if_pos here]
      exact iff_of_false nofun fun absent => absent.1 here
    · rw [behind?_of_not_begins here, ih]
      exact (and_iff_right here).symm

/-! ## Skipping -/

/-- A byte that the needle does not begin with is skipped. -/
theorem behind?_of_head_ne {first : UInt8} {more : Bytes} (ne : b ≠ first) :
    behind? (first :: more) (b :: rest) = behind? (first :: more) rest := by
  apply behind?_of_not_begins
  rintro ⟨tail, whole⟩
  exact ne (List.cons.inj whole).1.symm

/-- Bytes without the first one of the needle are skipped. -/
theorem behind?_append_of_notMem {first : UInt8} {more : Bytes} (notMem : first ∉ front) :
    behind? (first :: more) (front ++ rest) = behind? (first :: more) rest := by
  induction front with
  | nil => rfl
  | cons b front ih =>
    rw [List.mem_cons, not_or] at notMem
    rw [List.cons_append, behind?_of_head_ne (Ne.symm notMem.1), ih notMem.2]

/-! ## Texts that go on -/

/-- What is found is found in every longer text. -/
theorem behind?_append_of_some {tail : Bytes} (nonempty : needle ≠ [])
    (found : behind? needle hay = some back) :
    behind? needle (hay ++ tail) = some (back ++ tail) := by
  obtain ⟨front, rfl, least⟩ := (behind?_eq_some_iff nonempty).mp found
  refine (behind?_eq_some_iff nonempty).mpr ⟨front, List.append_assoc _ _ _, ?_⟩
  intro f b whole
  apply Nat.not_lt.mp
  intro shorter
  -- an earlier occurrence would end inside the shorter text
  have inside : (f ++ needle).length ≤ (front ++ needle ++ back).length := by
    simp only [List.length_append]
    omega
  have occurs : f ++ needle <+: front ++ needle ++ back :=
    List.prefix_of_prefix_length_le ⟨b, whole.symm⟩ (List.prefix_append _ tail) inside
  obtain ⟨b', split⟩ := occurs
  exact absurd (least f b' split.symm) (by omega)

/-- What is not found is not found in front of more bytes either, unless its last
one is among them. -/
theorem behind?_append_of_none {tail : Bytes} {last : UInt8}
    (absent : behind? (needle ++ [last]) hay = none) (notMem : last ∉ tail) :
    behind? (needle ++ [last]) (hay ++ tail) = none := by
  have nonempty : needle ++ [last] ≠ [] := by simp
  rw [behind?_eq_none_iff nonempty] at absent ⊢
  rintro ⟨f, b, whole⟩
  rw [← List.append_assoc, List.append_assoc] at whole
  rcases List.append_eq_append_iff.mp whole with ⟨c, rfl, split⟩ | ⟨c, before, split⟩
  · cases c with
    | nil =>
      have begins : last :: b = tail := split
      exact notMem (begins ▸ List.mem_cons_self)
    | cons x c =>
      obtain ⟨rfl, -⟩ := List.cons.inj split
      exact absent ⟨f, c, by simp⟩
  · exact notMem (split ▸ by simp)

/-! ## Positions -/

/-- Behind the position that is found stands what is found. -/
theorem drop_searchAt (needle front hay : Bytes) :
    (searchAt needle front.length hay).map (fun p => (front ++ hay).drop (p + needle.length))
      = behind? needle hay := by
  induction hay generalizing front with
  | nil => rfl
  | cons b rest ih =>
    rw [searchAt_cons, behind?]
    by_cases here : needle <+: b :: rest
    · rw [if_pos (List.isPrefixOf_iff_prefix.mpr here), if_pos here, Option.map_some,
        List.drop_append, List.drop_of_length_le (Nat.le_add_right _ _), Nat.add_sub_cancel_left]
      rfl
    · have step := ih (front ++ [b])
      rw [List.length_append, List.append_assoc] at step
      rw [if_neg (fun found => here (List.isPrefixOf_iff_prefix.mp found)), if_neg here]
      exact step

/-- A position that is found is that of the needle. -/
theorem drop_of_searchAt {front hay : Bytes} {p : Nat}
    (found : searchAt needle front.length hay = some p) :
    needle <+: (front ++ hay).drop p := by
  induction hay generalizing front with
  | nil => cases found
  | cons b rest ih =>
    rw [searchAt_cons] at found
    by_cases here : needle <+: b :: rest
    · rw [if_pos (List.isPrefixOf_iff_prefix.mpr here)] at found
      cases found
      rw [List.drop_left]
      exact here
    · rw [if_neg (fun found => here (List.isPrefixOf_iff_prefix.mp found))] at found
      have length : front.length + 1 = (front ++ [b]).length := by simp
      rw [length] at found
      have occurs := ih found
      rwa [List.append_assoc] at occurs

/-- **A search finds the position in front of what is found.** -/
theorem drop_findFrom (nonempty : needle ≠ []) (hay : Bytes) (start : Nat) :
    (findFrom hay needle start).map (fun p => hay.drop (p + needle.length))
      = behind? needle (hay.drop start) := by
  rw [findFrom, if_neg (by simpa using nonempty)]
  by_cases inside : start ≤ hay.length
  · have length : start = (hay.take start).length := by
      rw [List.length_take, Nat.min_eq_left inside]
    have positions := drop_searchAt needle (hay.take start) (hay.drop start)
    rwa [List.take_append_drop, ← length] at positions
  · rw [List.drop_of_length_le (by omega)]
    rfl

/-- The needle stands at the position that is found. -/
theorem prefix_of_findFrom {p : Nat} (inside : start ≤ hay.length)
    (found : findFrom hay needle start = some p) : needle <+: hay.drop p := by
  have length : start = (hay.take start).length := by
    rw [List.length_take, Nat.min_eq_left inside]
  have searched : searchAt needle (hay.take start).length (hay.drop start) = some p := by
    rw [← length]
    unfold findFrom at found
    split at found
    · cases found
    · exact found
  have occurs := drop_of_searchAt searched
  rwa [List.take_append_drop] at occurs

/-- The text from the start of the search is divided at the first of all occurrences. -/
theorem split_of_findFrom {p : Nat} (nonempty : needle ≠ [])
    (found : findFrom hay needle start = some p) :
    ∃ front back, hay.drop start = front ++ needle ++ back ∧ p = start + front.length ∧
      ∀ f b, hay.drop start = f ++ needle ++ b → front.length ≤ f.length := by
  have behind := drop_findFrom nonempty hay start
  rw [found, Option.map_some] at behind
  obtain ⟨front, whole, least⟩ := (behind?_eq_some_iff nonempty).mp behind.symm
  refine ⟨front, _, whole, ?_, least⟩
  have some : 0 < needle.length := List.length_pos_iff.mpr nonempty
  have lengths := congrArg List.length whole
  simp only [List.length_append, List.length_drop] at lengths
  obtain ⟨back, occurs⟩ := prefix_of_findFrom (by omega) found
  have room := congrArg List.length occurs
  simp only [List.length_append, List.length_drop] at room
  omega

/-- A search for one byte stops at the first one. -/
theorem takeWhile_of_findFrom {p : Nat} (found : findFrom hay [b] start = some p) :
    ∃ back, hay.drop start = (hay.drop start).takeWhile (· != b) ++ b :: back ∧
      p = start + ((hay.drop start).takeWhile (· != b)).length := by
  obtain ⟨front, back, whole, rfl, least⟩ := split_of_findFrom (List.cons_ne_nil b []) found
  have outside : ∀ c ∈ front, (c != b) = true := by
    intro c mem
    rw [bne_iff_ne]
    rintro rfl
    obtain ⟨f, g, rfl⟩ := List.append_of_mem mem
    have shorter := least f (g ++ [c] ++ back) (by simp [whole])
    simp only [List.length_append, List.length_cons] at shorter
    omega
  have taken : (hay.drop start).takeWhile (· != b) = front := by
    rw [whole, List.append_assoc, List.takeWhile_append_of_pos outside]
    simp
  rw [taken]
  exact ⟨back, by simpa using whole, rfl⟩

end Bytes

open Bytes

/-! ## Scans -/

namespace Scan

variable {json key suffix : Bytes}

theorem pattern_ne_nil (key suffix : Bytes) : pattern key suffix ≠ [] := nofun

theorem drop_after? (json key suffix : Bytes) :
    (after? json key suffix).map json.drop = behind? (pattern key suffix) json := by
  have positions := drop_findFrom (pattern_ne_nil key suffix) json 0
  rw [List.drop_zero] at positions
  rw [after?, Option.map_map]
  exact positions

theorem untilQuote_append (bytes t : Bytes) :
    untilQuote (bytes ++ quote :: t) = untilQuote bytes := by
  induction bytes with
  | nil => rfl
  | cons b bytes ih =>
    simp only [untilQuote, List.cons_append, List.takeWhile_cons] at ih ⊢
    rw [ih]

/-- Bytes without quotation marks are taken up to the one behind them. -/
theorem untilQuote_of_notMem {bytes : Bytes} (noQuote : quote ∉ bytes) (t : Bytes) :
    untilQuote (bytes ++ quote :: t) = bytes := by
  have each : ∀ b ∈ bytes, (b != quote) = true := by
    intro b mem
    rw [bne_iff_ne]
    rintro rfl
    exact noQuote mem
  rw [untilQuote, List.takeWhile_append_of_pos each, List.takeWhile_cons_of_neg (by simp),
    List.append_nil]

/-- A close slice begins behind the first quoted key with colon and quotation mark. -/
theorem closeSlice_eq (json key : Bytes) :
    closeSlice json key = ((behind? (pattern key [colon, quote]) json).map untilQuote).getD [] := by
  rw [← drop_after?, closeSlice]
  cases after? json key [colon, quote] <;> rfl

/-- The value that stands loosely at the front. -/
def looseValue (bytes : Bytes) : Bytes :=
  match bytes.dropWhile (· == space) with
  | [] => []
  | b :: rest => if b = quote then untilQuote rest else (b :: rest).takeWhile isDigit

/-- A loose slice begins behind the first quoted key with colon. -/
theorem looseSlice_eq (json key : Bytes) :
    looseSlice json key = ((behind? (pattern key [colon]) json).map looseValue).getD [] := by
  rw [← drop_after?, looseSlice]
  cases after? json key [colon] <;> rfl

/-! ### The length of a field -/

theorem closeSlice_sublist (json key : Bytes) : (closeSlice json key).Sublist json := by
  unfold closeSlice
  split
  · exact (List.takeWhile_sublist _).trans (List.drop_sublist _ _)
  · exact List.nil_sublist _

theorem looseSlice_sublist (json key : Bytes) : (looseSlice json key).Sublist json := by
  unfold looseSlice
  split
  · exact List.nil_sublist _
  · next start _ =>
    have value : ((json.drop start).dropWhile (· == space)).Sublist json :=
      (List.dropWhile_sublist _).trans (List.drop_sublist _ _)
    split
    · exact List.nil_sublist _
    · next b rest begins =>
      rw [begins] at value
      split
      · exact (List.takeWhile_sublist _).trans ((List.sublist_cons_self b rest).trans value)
      · exact (List.takeWhile_sublist _).trans value

/-- A field is no longer than the text that it was found in. -/
theorem length_field_le (json key : String) :
    (Utf8.encode (field json key)).length ≤ (Utf8.encode json).length := by
  have slice : (fieldSlice (Utf8.encode json) (Utf8.encode key)).Sublist (Utf8.encode json) := by
    rw [fieldSlice]
    split
    · exact looseSlice_sublist _ _
    · exact closeSlice_sublist _ _
  rw [field, Utf8.decodeOrEmpty]
  cases decoded : Utf8.decode? (fieldSlice (Utf8.encode json) (Utf8.encode key)) with
  | none => exact Nat.zero_le _
  | some text =>
    rw [Option.getD_some, Utf8.encode_of_decode? decoded]
    exact slice.length_le

end Scan

namespace Receipt

/-- The quoted key that an error stands under. -/
def errorKey : Bytes := Utf8.encode "\"error\""

/-- The first byte of what stands behind the first colon, and what follows it. -/
def valueBehind? (bytes : Bytes) : Option Bytes :=
  (behind? [colon] bytes).map (·.dropWhile Scan.isSpaceOrTab)

/-- A receipt reports an error when what stands behind the first colon behind
the first quoted `error` is one. -/
theorem reportsError_eq (receipt : Bytes) :
    reportsError receipt
      = (((behind? errorKey receipt).bind valueBehind?).map isErrorValue).getD false := by
  have keyed : errorKey ≠ [] := by decide
  have keys := drop_findFrom keyed receipt 0
  rw [List.drop_zero] at keys
  rw [reportsError, ← errorKey, ← keys]
  cases found : findFrom receipt errorKey 0 with
  | none => rfl
  | some key =>
    obtain ⟨back, split⟩ := prefix_of_findFrom (Nat.zero_le _) found
    have behindKey : receipt.drop (key + errorKey.length) = back := by
      rw [← List.drop_drop, ← split, List.drop_left]
    have noColon : colon ∉ errorKey := by decide
    have colons := drop_findFrom (List.cons_ne_nil colon []) receipt key
    rw [← split, behind?_append_of_notMem noColon] at colons
    simp only [Option.map_some, Option.bind_some]
    rw [behindKey, valueBehind?, ← colons]
    cases findFrom receipt [colon] key <;> rfl

end Receipt

namespace Scan

variable {bytes : Bytes} {start p : Nat}

theorem take_length_takeWhile (passes : UInt8 → Bool) (bytes : Bytes) :
    bytes.take (bytes.takeWhile passes).length = bytes.takeWhile passes :=
  (List.prefix_iff_eq_take.mp (List.takeWhile_prefix _)).symm

theorem drop_length_takeWhile (passes : UInt8 → Bool) (bytes : Bytes) :
    bytes.drop (bytes.takeWhile passes).length = bytes.dropWhile passes := by
  have split : bytes.takeWhile passes ++ bytes.dropWhile passes = bytes :=
    List.takeWhile_append_dropWhile
  have behind := congrArg (List.drop (bytes.takeWhile passes).length) split
  rw [List.drop_left] at behind
  exact behind.symm

/-- What is taken up to the next quotation mark is what stands before it. -/
theorem take_to_quote (found : findFrom bytes [quote] start = some p) :
    (bytes.drop start).take (p - start) = untilQuote (bytes.drop start) := by
  obtain ⟨rest, split, stops⟩ := takeWhile_of_findFrom found
  rw [stops, Nat.add_sub_cancel_left]
  exact take_length_takeWhile _ _

/-- A value is looked for behind the first quoted key, without its colon, and
stands behind the next colon. -/
theorem drop_valueStart? (json key : Bytes) :
    (valueStart? json key).map json.drop
      = (behind? (pattern key []) json).bind Receipt.valueBehind? := by
  rw [← drop_after?, valueStart?]
  cases after? json key [] with
  | none => rfl
  | some keyEnd =>
    have colons := drop_findFrom (List.cons_ne_nil colon []) json keyEnd
    simp only [Option.map_some, Option.bind_some, Receipt.valueBehind?, ← colons]
    cases findFrom json [colon] keyEnd with
    | none => rfl
    | some colonAt =>
      have skipped := drop_length_takeWhile isSpaceOrTab (json.drop (colonAt + 1))
      rw [List.drop_drop] at skipped
      exact congrArg some skipped

/-- What stands between the next two quotation marks. -/
def quotedPart? (bytes : Bytes) : Option Bytes :=
  (behind? [quote] bytes).bind fun back => (behind? [quote] back).map fun _ => untilQuote back

theorem quote_notMem_quotedPart {part : Bytes} (found : quotedPart? bytes = some part) :
    quote ∉ part := by
  obtain ⟨back, -, closes⟩ := Option.bind_eq_some_iff.mp found
  obtain ⟨_, -, rfl⟩ := Option.map_eq_some_iff.mp closes
  exact quote_notMem_untilQuote back

/-- A string is what stands between the next two quotation marks of a value. -/
theorem stringSlice?_eq (json key : Bytes) :
    stringSlice? json key
      = ((behind? (pattern key []) json).bind Receipt.valueBehind?).bind quotedPart? := by
  rw [← drop_valueStart?, stringSlice?]
  cases valueStart? json key with
  | none => rfl
  | some start =>
    have opens := drop_findFrom (List.cons_ne_nil quote []) json start
    simp only [Option.map_some, Option.bind_some, quotedPart?, ← opens]
    cases findFrom json [quote] start with
    | none => rfl
    | some opening =>
      have closes := drop_findFrom (List.cons_ne_nil quote []) json (opening + 1)
      simp only [Option.map_some, Option.bind_some, List.length_singleton, ← closes]
      cases found : findFrom json [quote] (opening + 1) with
      | none => rfl
      | some closing => exact congrArg some (take_to_quote found)

/-- Digits are read where the value begins. -/
theorem digitsSlice?_eq (json key : Bytes) :
    digitsSlice? json key
      = ((behind? (pattern key []) json).bind Receipt.valueBehind?).map
          (·.takeWhile isDigit) := by
  rw [← drop_valueStart?, digitsSlice?]
  cases valueStart? json key <;> rfl

/-- The truth value that stands at the front. -/
def truthAt? (bytes : Bytes) : Option Bool :=
  if (Utf8.encode "true").isPrefixOf bytes then some true
  else if (Utf8.encode "false").isPrefixOf bytes then some false
  else none

/-- A truth value is read where the value begins. -/
theorem boolean?_eq (json key : String) :
    boolean? json key = ((behind? (pattern (Utf8.encode key) []) (Utf8.encode json)).bind
      Receipt.valueBehind?).bind truthAt? := by
  rw [← drop_valueStart?, boolean?]
  cases valueStart? (Utf8.encode json) (Utf8.encode key) <;> rfl

end Scan

end HostBoundary
