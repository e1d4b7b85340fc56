import HostBoundary.Proofs.FlatScan

/-!
# The labels of a text

A scan looks for a quoted key with a colon behind it, wherever in the text it
stands.  So all that a scan can find in a text are its *labels*: the quoted
strings with a colon behind them, each with what follows the colon.

`Labelled text labels` says that these are the labels of a text.  It takes the
text apart string by string.  A string inside of which a quotation mark is escaped
would be taken apart wrongly, so there is no rule for it: the relation is about
texts whose strings hold no quotation mark at all.

## Why nothing else is found

A pattern begins with a quotation mark and goes on to the next one.  In a text of
strings without quotation marks, it begins at the opening mark of a string, and
then that string is the key; or at a closing one, and then the key is what stands
between two strings.  That begins with a colon or with a separator, which no key
has that is a word (`Word`).

## Main results

* `Labelled.behinds` — what stands behind the occurrences of a pattern are the
  labels with that key, in order.
* `Labelled.closeSlice`, `Labelled.looseSlice`, `Labelled.objectSlice` — what the
  scans take.
* `Labelled.occurrences` — how often a key occurs.
-/

namespace HostBoundary

namespace Bytes

/-- The closing bracket. -/
def closeBracket : UInt8 := 93

variable {needle front rest hay : Bytes} {b : UInt8}

/-! ## All occurrences -/

/-- What stands behind each occurrence of the needle, in order. -/
def behinds (needle : Bytes) : Bytes → List Bytes
  | [] => []
  | b :: rest =>
    if needle <+: b :: rest then (b :: rest).drop needle.length :: behinds needle rest
    else behinds needle rest

theorem behind?_eq_head? (needle hay : Bytes) :
    behind? needle hay = (behinds needle hay).head? := by
  induction hay with
  | nil => rfl
  | cons b rest ih =>
    rw [behind?, behinds, ih]
    split <;> rfl

theorem occurrences_eq_length (needle hay : Bytes) :
    occurrences needle hay = (behinds needle hay).length := by
  induction hay with
  | nil => rfl
  | cons b rest ih =>
    rw [occurrences, behinds, ih]
    by_cases here : needle <+: b :: rest
    · rw [if_pos (List.isPrefixOf_iff_prefix.mpr here), if_pos here, List.length_cons]
    · rw [if_neg (mt List.isPrefixOf_iff_prefix.mp here), if_neg here, Nat.add_zero]

/-- Occurrences stand at different places. -/
theorem occurrences_le_length (needle hay : Bytes) : occurrences needle hay ≤ hay.length := by
  induction hay with
  | nil => exact Nat.le_refl _
  | cons b rest ih =>
    rw [occurrences, List.length_cons]
    split <;> omega

theorem behinds_of_not_begins (absent : ¬ needle <+: b :: rest) :
    behinds needle (b :: rest) = behinds needle rest := by
  rw [behinds, if_neg absent]

/-- A byte that the needle does not begin with is skipped. -/
theorem behinds_of_head_ne {first : UInt8} {more : Bytes} (ne : b ≠ first) :
    behinds (first :: more) (b :: rest) = behinds (first :: more) rest :=
  behinds_of_not_begins fun begins => ne (List.cons_prefix_cons.mp begins).1.symm

/-- Bytes without the first one of the needle are skipped. -/
theorem behinds_append_of_notMem {first : UInt8} {more : Bytes} (notMem : first ∉ front) :
    behinds (first :: more) (front ++ rest) = behinds (first :: more) rest := by
  induction front with
  | nil => rfl
  | cons b front ih =>
    rw [List.mem_cons, not_or] at notMem
    rw [List.cons_append, behinds_of_head_ne (Ne.symm notMem.1), ih notMem.2]

end Bytes

open Bytes Utf8

/-! ## Labels -/

/-- The bytes that stand behind a value. -/
def separators : Bytes := [comma, closeBracket, closeBrace]

/-- What stands behind a value: a separator, or nothing. -/
def Ends (rest : Bytes) : Prop := ∀ b ∈ rest.head?, b ∈ separators

/-- A key without quotation marks, colons and separators. -/
def Word (key : Bytes) : Prop := ∀ b ∈ key, b ∉ quote :: colon :: separators

instance (key : Bytes) : Decidable (Word key) :=
  decidable_of_iff (key.all fun b => !(quote :: colon :: separators).contains b) (by simp [Word])

/-- The labels of a text: its strings with a colon behind them, each with what
stands behind the colon. -/
inductive Labelled : Bytes → List (Bytes × Bytes) → Prop
  | nil : Labelled [] []
  /-- Between two strings. -/
  | between {b : UInt8} {rest : Bytes} {labels : List (Bytes × Bytes)} (notQuote : b ≠ quote)
      (labelled : Labelled rest labels) : Labelled (b :: rest) labels
  /-- A string with a colon behind it. -/
  | label {name rest : Bytes} {labels : List (Bytes × Bytes)} (noQuote : quote ∉ name)
      (labelled : Labelled rest labels) :
      Labelled (quote :: (name ++ quote :: colon :: rest)) ((name, rest) :: labels)
  /-- A string with no colon behind it. -/
  | value {content rest : Bytes} {labels : List (Bytes × Bytes)} (noQuote : quote ∉ content)
      (ends : Ends rest) (labelled : Labelled rest labels) :
      Labelled (quote :: (content ++ quote :: rest)) labels

variable {key name content suffix text rest : Bytes} {labels : List (Bytes × Bytes)}

theorem Word.noQuote (word : Word key) : quote ∉ key := fun mem => word _ mem List.mem_cons_self

/-- What stands between strings is skipped. -/
theorem Labelled.skip {front : Bytes} (noQuote : quote ∉ front) (labelled : Labelled rest labels) :
    Labelled (front ++ rest) labels := by
  induction front with
  | nil => exact labelled
  | cons b front ih =>
    rw [List.mem_cons, not_or] at noQuote
    exact .between (Ne.symm noQuote.1) (ih noQuote.2)

/-- A text without quotation marks has no labels. -/
theorem Labelled.of_notMem (noQuote : quote ∉ text) : Labelled text [] := by
  have labelled := Labelled.nil.skip noQuote
  rwa [List.append_nil] at labelled

/-- No key that is a word begins with what stands behind a string. -/
theorem Word.not_prefix (word : Word key) (follows : ∀ b ∈ rest.head?, b ∈ colon :: separators) :
    ¬ key ++ quote :: suffix <+: rest := by
  intro begins
  cases rest with
  | nil => simp at begins
  | cons b rest =>
    have isFollowing : b ∈ colon :: separators := follows b rfl
    cases key with
    | nil =>
      obtain ⟨rfl, -⟩ := List.cons_prefix_cons.mp begins
      exact absurd isFollowing (by decide)
    | cons a key =>
      obtain ⟨rfl, -⟩ := List.cons_prefix_cons.mp begins
      exact word a List.mem_cons_self (List.mem_cons_of_mem _ isFollowing)

/-- **A string is found when it is the key**, and otherwise it is passed with both
of its quotation marks. -/
theorem behinds_string (word : Word key) (noQuote : quote ∉ content)
    (follows : ∀ b ∈ rest.head?, b ∈ colon :: separators) :
    behinds (Scan.pattern key suffix) (quote :: (content ++ quote :: rest))
      = (if content = key ∧ suffix <+: rest then [rest.drop suffix.length] else [])
        ++ behinds (Scan.pattern key suffix) rest := by
  have passed : behinds (Scan.pattern key suffix) (content ++ quote :: rest)
      = behinds (Scan.pattern key suffix) rest := by
    rw [Scan.pattern, behinds_append_of_notMem noQuote]
    exact behinds_of_not_begins fun begins =>
      word.not_prefix follows (List.cons_prefix_cons.mp begins).2
  have opens : Scan.pattern key suffix <+: quote :: (content ++ quote :: rest) ↔
      content = key ∧ suffix <+: rest := by
    rw [Scan.pattern, List.cons_prefix_cons]
    constructor
    · rintro ⟨-, begins⟩
      obtain ⟨same, found⟩ := quoted_begins word.noQuote noQuote begins
      exact ⟨same.symm, found⟩
    · rintro ⟨rfl, found⟩
      exact ⟨rfl, (List.prefix_append_right_inj _).mpr (List.cons_prefix_cons.mpr ⟨rfl, found⟩)⟩
  rw [behinds, passed]
  by_cases found : content = key ∧ suffix <+: rest
  · rw [if_pos (opens.mpr found), if_pos found, found.1]
    have length : (Scan.pattern key suffix).length = (quote :: (key ++ [quote])).length
        + suffix.length := by
      simp only [Scan.pattern, List.length_cons, List.length_append, List.length_nil]
      omega
    have whole : quote :: (key ++ quote :: rest) = (quote :: (key ++ [quote])) ++ rest := by simp
    rw [length, whole, ← List.drop_drop, List.drop_left]
    rfl
  · rw [if_neg (mt opens.mp found), if_neg found]
    rfl

/-- An object slice begins behind the first quoted key with colon, if a brace stands
there. -/
theorem Scan.objectSlice_eq (json key : Bytes) :
    Scan.objectSlice json key = ((behind? (Scan.pattern key [colon, openBrace]) json).map
      fun back => Scan.balanced 0 (openBrace :: back)).getD [] := by
  rw [← Scan.drop_after?, Scan.objectSlice]
  cases at? : Scan.after? json key [colon, openBrace] with
  | none => rfl
  | some start =>
    obtain ⟨p, occurs, rfl⟩ := Option.map_eq_some_iff.mp at?
    obtain ⟨back, split⟩ := prefix_of_findFrom (Nat.zero_le _) occurs
    -- the scan steps back to the brace that the pattern ends with
    have pattern : Scan.pattern key [colon, openBrace]
        = Scan.pattern key [colon] ++ [openBrace] := by simp [Scan.pattern]
    have whole : json.drop p = Scan.pattern key [colon] ++ openBrace :: back := by
      rw [← split, pattern, List.append_assoc]
      rfl
    have length : p + (Scan.pattern key [colon, openBrace]).length
        = p + (Scan.pattern key [colon]).length + 1 := by
      rw [pattern, List.length_append, List.length_singleton, Nat.add_assoc]
    have brace : json.drop (p + (Scan.pattern key [colon]).length) = openBrace :: back := by
      rw [← List.drop_drop, whole, List.drop_left]
    have behindBrace : json.drop (p + (Scan.pattern key [colon]).length + 1) = back := by
      rw [← List.drop_drop, brace]
      rfl
    simp only [Option.map_some, Option.getD_some, length, Nat.add_sub_cancel, brace, behindBrace]

namespace Labelled

/-- **What a scan can find are the labels with its key**, in their order. -/
theorem behinds (labelled : Labelled text labels) (word : Word key) (suffix : Bytes) :
    Bytes.behinds (Scan.pattern key (colon :: suffix)) text
      = (labels.filter fun l => l.1 = key ∧ suffix <+: l.2).map
          fun l => l.2.drop suffix.length := by
  induction labelled with
  | nil => rfl
  | between notQuote _ ih =>
    rw [Scan.pattern, behinds_of_head_ne notQuote]
    exact ih
  | @label name rest labels noQuote _ ih =>
    have colon_ne : colon ≠ quote := by decide
    have follows : ∀ b ∈ (colon :: rest).head?, b ∈ colon :: separators := by simp
    have more : Bytes.behinds (Scan.pattern key (colon :: suffix)) (colon :: rest)
        = Bytes.behinds (Scan.pattern key (colon :: suffix)) rest := behinds_of_head_ne colon_ne
    rw [behinds_string word noQuote follows, more, ih]
    by_cases found : name = key ∧ suffix <+: rest
    · have begins : colon :: suffix <+: colon :: rest := List.cons_prefix_cons.mpr ⟨rfl, found.2⟩
      rw [if_pos ⟨found.1, begins⟩, List.filter_cons_of_pos (by simpa using found)]
      rfl
    · have other : ¬ (name = key ∧ colon :: suffix <+: colon :: rest) := fun both =>
        found ⟨both.1, (List.cons_prefix_cons.mp both.2).2⟩
      rw [if_neg other, List.filter_cons_of_neg (by simpa using found)]
      rfl
  | @value content rest labels noQuote ends _ ih =>
    have follows : ∀ b ∈ rest.head?, b ∈ colon :: separators :=
      fun b mem => List.mem_cons_of_mem _ (ends b mem)
    have noColon : ¬ colon :: suffix <+: rest := by
      rintro ⟨back, rfl⟩
      exact absurd (ends colon rfl) (by decide)
    rw [behinds_string word noQuote follows, if_neg fun both => noColon both.2, ih]
    rfl

/-- The first label with a key, in front of whose rest the suffix stands. -/
theorem behind? (labelled : Labelled text labels) (word : Word key) (suffix : Bytes) :
    Bytes.behind? (Scan.pattern key (colon :: suffix)) text
      = (labels.find? fun l => l.1 = key ∧ suffix <+: l.2).map fun l => l.2.drop suffix.length := by
  rw [behind?_eq_head?, labelled.behinds word, List.head?_map, List.head?_filter]

/-- **A key occurs as often as it is a label.** -/
theorem occurrences (labelled : Labelled text labels) (word : Word key) :
    Bytes.occurrences (Scan.pattern key [colon]) text = labels.countP (·.1 = key) := by
  rw [occurrences_eq_length, labelled.behinds word, List.length_map, List.countP_eq_length_filter]
  simp [List.nil_prefix]

/-! ## What the scans take -/

theorem closeSlice (labelled : Labelled text labels) (word : Word key) :
    Scan.closeSlice text key = ((labels.find? fun l => l.1 = key ∧ [quote] <+: l.2).map
      fun l => Scan.untilQuote (l.2.drop 1)).getD [] := by
  rw [Scan.closeSlice_eq, labelled.behind? word, Option.map_map]
  rfl

theorem looseSlice (labelled : Labelled text labels) (word : Word key) :
    Scan.looseSlice text key
      = ((labels.find? (·.1 = key)).map fun l => Scan.looseValue l.2).getD [] := by
  rw [Scan.looseSlice_eq, labelled.behind? word, Option.map_map]
  simp [List.nil_prefix, Function.comp_def]

theorem objectSlice (labelled : Labelled text labels) (word : Word key) :
    Scan.objectSlice text key = ((labels.find? fun l => l.1 = key ∧ [openBrace] <+: l.2).map
      fun l => Scan.balanced 0 l.2).getD [] := by
  rw [Scan.objectSlice_eq, labelled.behind? word, Option.map_map]
  congr 1
  refine Option.map_congr fun l mem => ?_
  have found := List.find?_some mem
  obtain ⟨back, whole⟩ := (of_decide_eq_true found).2
  rw [Function.comp_apply, ← whole]
  rfl

end Labelled

end HostBoundary
