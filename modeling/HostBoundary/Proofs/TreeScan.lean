import Mathlib.Data.List.Find
import Mathlib.Data.List.Forall2
import HostBoundary.Proofs.Encodings
import HostBoundary.Proofs.Labels
import HostBoundary.Proofs.Writing

/-!
# Scanning the text of a tree

A scan knows nothing of nesting.  It takes the first quoted key with a colon
behind it, however deep that stands.  In the text of a tree this is the first
member with that name in the order of reading: a member goes before what is inside
of its value, and that goes before the next member (`Json.labels`).

This holds of values whose strings and names need no escape (`Json.Plain`).  A
brace inside a string would mislead the scan for objects, which counts braces and
does not look at quotation marks; so plain strings have none.

## What is found

* `Json.Plain.field_text` — a field is the first string under its name that is not
  empty, and else what the first value under its name shows.
* `Json.Plain.object_text` — an object is the text of the first object under its
  name.
* `Json.Plain.occurrences_text` — a name occurs as often as it names a member.
-/

namespace HostBoundary

open Bytes Utf8

namespace Json

/-! ## Plain values -/

/-- A text whose letters stand in a string as they are, and are no braces. -/
def PlainText (s : String) : Prop := ∀ c ∈ s.toList, escapeChar c = [c] ∧ c ≠ '{' ∧ c ≠ '}'

instance (s : String) : Decidable (PlainText s) :=
  decidable_of_iff (s.toList.all fun c => escapeChar c == [c] && c != '{' && c != '}')
    (by simp [PlainText, and_assoc])

/-- A value with plain strings and names, and with natural numbers only. -/
inductive Plain : Json → Prop
  | null : Plain .null
  | bool (b : Bool) : Plain (.bool b)
  | nat (n : Nat) : Plain (.nat n)
  | string {s : String} (plain : PlainText s) : Plain (.string s)
  | array {items : List Json} (each : ∀ item ∈ items, Plain item) : Plain (.array items)
  | object {members : List (String × Json)} (names : ∀ member ∈ members, PlainText member.1)
      (each : ∀ member ∈ members, Plain member.2) : Plain (.object members)

theorem plain_object {members : List (String × Json)}
    (each : ∀ member ∈ members, PlainText member.1 ∧ Plain member.2) : Plain (.object members) :=
  .object (fun member mem => (each member mem).1) fun member mem => (each member mem).2

namespace PlainText

variable {s : String}

theorem unescaped (plain : PlainText s) : Unescaped s.toList := fun c mem => (plain c mem).1

theorem notMem_encode (plain : PlainText s) {c : Char} {b : UInt8}
    (special : ¬ (escapeChar c = [c] ∧ c ≠ '{' ∧ c ≠ '}')) (small : b < 128)
    (spelled : String.utf8EncodeChar c = [b]) : b ∉ encode s := by
  rw [encode_eq_spell, mem_spell_iff small spelled]
  exact fun mem => special (plain c mem)

theorem noQuote (plain : PlainText s) : quote ∉ encode s :=
  plain.notMem_encode (c := '"') (by decide) (by decide) rfl

theorem noOpenBrace (plain : PlainText s) : openBrace ∉ encode s :=
  plain.notMem_encode (c := '{') (by decide) (by decide) rfl

theorem noCloseBrace (plain : PlainText s) : closeBrace ∉ encode s :=
  plain.notMem_encode (c := '}') (by decide) (by decide) rfl

/-- The bytes of a string. -/
theorem spell_stringChars (plain : PlainText s) :
    spell (stringChars s) = quote :: (encode s ++ [quote]) := by
  rw [plain.unescaped.stringChars, spell_cons, spell_append, encode_eq_spell]
  rfl

end PlainText

/-! ### Plain leaves -/

theorem plainText_hex (bytes : Bytes) : PlainText (Hex.encode bytes) := by
  have letters : PlainText (String.ofList Hex.alphabet) := by decide
  rw [PlainText, String.toList_ofList] at letters
  exact fun c mem => letters c (Hex.mem_alphabet_of_mem_encode mem)

theorem plainText_base64 (bytes : Bytes) : PlainText (Base64.encode bytes) := by
  have letters : PlainText (String.ofList Base64.alphabet) := by decide
  rw [PlainText, String.toList_ofList] at letters
  intro c mem
  rcases Base64.mem_alphabet_of_mem_encode mem with symbol | rfl
  · exact letters c symbol
  · decide

theorem plainText_decimal (n : UInt64) : PlainText (decimal n) := by
  intro c mem
  rw [decimal, Nat.repr_eq_ofList_toDigits, String.toList_ofList] at mem
  have digit : c.isDigit = true := Nat.isDigit_of_mem_toDigits (by decide) (by decide) mem
  have each : ∀ k < 10, escapeChar (Char.ofNat (48 + k)) = [Char.ofNat (48 + k)] ∧
      Char.ofNat (48 + k) ≠ '{' ∧ Char.ofNat (48 + k) ≠ '}' := by decide
  obtain ⟨k, small, number, -⟩ := utf8EncodeChar_digit digit
  have here := each k small
  rwa [← number, Char.ofNat_toNat] at here

/-! ## The labels of a tree -/

mutual

/-- The members inside a value, in the order of reading. -/
def labels : Json → List (String × Json)
  | .null => []
  | .bool _ => []
  | .number _ => []
  | .string _ => []
  | .array items => itemsLabels items
  | .object members => membersLabels members

/-- The members inside the items of an array. -/
def itemsLabels : List Json → List (String × Json)
  | [] => []
  | item :: items => labels item ++ itemsLabels items

/-- Members, each with the members inside its value. -/
def membersLabels : List (String × Json) → List (String × Json)
  | [] => []
  | (name, value) :: members => (name, value) :: (labels value ++ membersLabels members)

end

theorem itemsLabels_eq_flatMap (items : List Json) : itemsLabels items = items.flatMap labels := by
  induction items with
  | nil => rfl
  | cons item items ih => rw [itemsLabels, ih, List.flatMap_cons]

/-- Where a member of a tree stands in its text: its name, and behind the colon its
value and what ends it. -/
structure Stands (member : String × Json) (place : Bytes × Bytes) : Prop where
  name : place.1 = encode member.1
  plain : Plain member.2
  value : ∃ rest, place.2 = spell member.2.chars ++ rest ∧ Ends rest

/-- The members inside a value are the labels of its text. -/
def Reads (value : Json) : Prop :=
  ∀ (rest : Bytes) (places : List (Bytes × Bytes)), Ends rest → Labelled rest places →
    ∃ inside, List.Forall₂ Stands value.labels inside ∧
      Labelled (spell value.chars ++ rest) (inside ++ places)

variable {rest : Bytes} {places : List (Bytes × Bytes)}

theorem ends_comma (rest : Bytes) : Ends (comma :: rest) := by
  rintro b ⟨⟩
  decide

theorem ends_closeBracket (rest : Bytes) : Ends (closeBracket :: rest) := by
  rintro b ⟨⟩
  decide

theorem ends_closeBrace (rest : Bytes) : Ends (closeBrace :: rest) := by
  rintro b ⟨⟩
  decide

theorem ends_nil : Ends [] := nofun

/-- The bytes of a natural number are digits. -/
theorem isDigit_of_mem_spell_toDigits {n : Nat} {b : UInt8}
    (mem : b ∈ spell (Nat.toDigits 10 n)) : Bytes.isDigit b = true := by
  obtain ⟨c, digit, here⟩ := List.mem_flatMap.mp mem
  obtain ⟨k, small, -, spelled⟩ :=
    utf8EncodeChar_digit (Nat.isDigit_of_mem_toDigits (by decide) (by decide) digit)
  have each : ∀ k < 10, Bytes.isDigit (UInt8.ofNat (48 + k)) = true := by decide
  rw [spelled, List.mem_singleton] at here
  rw [here]
  exact each k small

theorem notMem_spell_toDigits {b : UInt8} (noDigit : Bytes.isDigit b = false) (n : Nat) :
    b ∉ spell (Nat.toDigits 10 n) := by
  intro mem
  rw [isDigit_of_mem_spell_toDigits mem] at noDigit
  cases noDigit

theorem reads_items {items : List Json} (each : ∀ item ∈ items, Reads item) (ends : Ends rest)
    (labelled : Labelled rest places) :
    ∃ inside, List.Forall₂ Stands (itemsLabels items) inside ∧
      Labelled (spell (itemsChars items) ++ rest) (inside ++ places) := by
  induction items with
  | nil => exact ⟨[], .nil, labelled⟩
  | cons item items ih =>
    have first := each item List.mem_cons_self
    cases items with
    | nil =>
      rw [itemsLabels, itemsLabels, List.append_nil]
      exact first rest places ends labelled
    | cons next items =>
      obtain ⟨later, standLater, labelledLater⟩ :=
        ih fun i mem => each i (List.mem_cons_of_mem _ mem)
      obtain ⟨inside, stand, whole⟩ := first _ _ (ends_comma _) (labelledLater.between (by decide))
      refine ⟨inside ++ later, List.rel_append stand standLater, ?_⟩
      rw [itemsChars, spell_append, List.append_assoc, List.append_assoc]
      exact whole

theorem reads_member {name : String} {value : Json} (named : PlainText name) (plain : Plain value)
    (reads : Reads value) (ends : Ends rest) (labelled : Labelled rest places) :
    ∃ inside, List.Forall₂ Stands ((name, value) :: value.labels) inside ∧
      Labelled (spell (stringChars name ++ ':' :: value.chars) ++ rest) (inside ++ places) := by
  obtain ⟨inside, stand, whole⟩ := reads rest places ends labelled
  refine ⟨(encode name, spell value.chars ++ rest) :: inside,
    .cons ⟨rfl, plain, rest, rfl, ends⟩ stand, ?_⟩
  rw [spell_append, named.spell_stringChars, spell_cons]
  simp only [List.cons_append, List.append_assoc, List.nil_append]
  exact whole.label named.noQuote

theorem reads_members {members : List (String × Json)}
    (names : ∀ member ∈ members, PlainText member.1) (plain : ∀ member ∈ members, Plain member.2)
    (each : ∀ member ∈ members, Reads member.2) (ends : Ends rest)
    (labelled : Labelled rest places) :
    ∃ inside, List.Forall₂ Stands (membersLabels members) inside ∧
      Labelled (spell (membersChars members) ++ rest) (inside ++ places) := by
  induction members with
  | nil => exact ⟨[], .nil, labelled⟩
  | cons member members ih =>
    obtain ⟨name, value⟩ := member
    have named := names (name, value) List.mem_cons_self
    have plainValue := plain (name, value) List.mem_cons_self
    have first := each (name, value) List.mem_cons_self
    cases members with
    | nil =>
      rw [membersLabels, membersLabels, List.append_nil]
      exact reads_member named plainValue first ends labelled
    | cons next members =>
      obtain ⟨later, standLater, labelledLater⟩ :=
        ih (fun m mem => names m (List.mem_cons_of_mem _ mem))
          (fun m mem => plain m (List.mem_cons_of_mem _ mem))
          (fun m mem => each m (List.mem_cons_of_mem _ mem))
      obtain ⟨inside, stand, whole⟩ := reads_member named plainValue first (ends_comma _)
        (labelledLater.between (by decide))
      refine ⟨inside ++ later, List.rel_append stand standLater, ?_⟩
      have text : membersChars ((name, value) :: next :: members)
          = (stringChars name ++ ':' :: value.chars) ++ ',' :: membersChars (next :: members) := by
        rw [membersChars, List.append_assoc, List.cons_append]
      rw [text, spell_append, List.append_assoc, List.append_assoc]
      exact whole

/-- **The labels of a plain value's text are its members**, in the order of
reading. -/
theorem Plain.reads {value : Json} (plain : Plain value) : Reads value := by
  induction plain with
  | null => exact fun rest places _ labelled => ⟨[], .nil, labelled.skip (by decide)⟩
  | bool b =>
    refine fun rest places _ labelled => ⟨[], .nil, labelled.skip ?_⟩
    cases b <;> decide
  | nat n =>
    exact fun rest places _ labelled =>
      ⟨[], .nil, labelled.skip (notMem_spell_toDigits (by decide) n)⟩
  | @string s plain =>
    intro rest places ends labelled
    refine ⟨[], .nil, ?_⟩
    rw [chars, plain.spell_stringChars, List.cons_append, List.append_assoc]
    exact labelled.value plain.noQuote ends
  | @array items _ ih =>
    intro rest places _ labelled
    obtain ⟨inside, stand, whole⟩ := reads_items ih (ends_closeBracket rest)
      (labelled.between (by decide))
    refine ⟨inside, stand, ?_⟩
    rw [chars, spell_cons, spell_append, List.append_assoc, List.append_assoc]
    exact whole.between (by decide)
  | @object members names plain ih =>
    intro rest places _ labelled
    obtain ⟨inside, stand, whole⟩ := reads_members names plain ih (ends_closeBrace rest)
      (labelled.between (by decide))
    refine ⟨inside, stand, ?_⟩
    rw [chars, spell_cons, spell_append, List.append_assoc, List.append_assoc]
    exact whole.between (by decide)

theorem Plain.labelled_text {value : Json} (plain : Plain value) :
    ∃ places, List.Forall₂ Stands value.labels places ∧ Labelled (encode value.text) places := by
  obtain ⟨places, stand, labelled⟩ := plain.reads [] [] ends_nil .nil
  rw [List.append_nil, List.append_nil] at labelled
  rw [text, encode_ofList]
  exact ⟨places, stand, labelled⟩

/-! ## What is seen of a value -/

/-- A string. -/
def isString : Json → Bool
  | .string _ => true
  | _ => false

/-- An object. -/
def isObject : Json → Bool
  | .object _ => true
  | _ => false

/-- What a scan shows of a plain value: a string, the digits of a number, and
nothing of any other value. -/
def shown : Json → String
  | .string s => s
  | .number (.natural n) => Nat.repr n
  | _ => ""

/-- The first byte of a value tells the strings and the objects. -/
theorem Plain.first_byte {value : Json} (plain : Plain value) :
    ∃ b more, spell value.chars = b :: more ∧ (quote = b ↔ value.isString = true) ∧
      (openBrace = b ↔ value.isObject = true) := by
  cases plain with
  | null => exact ⟨_, _, rfl, by decide⟩
  | bool b => cases b <;> exact ⟨_, _, rfl, by decide⟩
  | nat n =>
    cases written : spell (Nat.toDigits 10 n) with
    | nil => exact absurd (spell_injective (t := []) written) Nat.toDigits_ne_nil
    | cons b more =>
      have other {c : UInt8} (noDigit : Bytes.isDigit c = false) : c ≠ b := by
        rintro rfl
        exact notMem_spell_toDigits noDigit n (written ▸ List.mem_cons_self)
      exact ⟨b, more, written, iff_of_false (other (by decide)) Bool.false_ne_true,
        iff_of_false (other (by decide)) Bool.false_ne_true⟩
  | string plain =>
    rw [chars, plain.spell_stringChars]
    exact ⟨_, _, rfl, iff_of_true rfl rfl, iff_of_false (by decide) Bool.false_ne_true⟩
  | array =>
    exact ⟨_, _, rfl, iff_of_false (by decide) Bool.false_ne_true,
      iff_of_false (by decide) Bool.false_ne_true⟩
  | object => exact ⟨_, _, rfl, iff_of_false (by decide) Bool.false_ne_true, iff_of_true rfl rfl⟩

theorem Plain.begins_quote_iff {value : Json} (plain : Plain value) (rest : Bytes) :
    [quote] <+: spell value.chars ++ rest ↔ value.isString = true := by
  obtain ⟨b, more, written, string, -⟩ := plain.first_byte
  rw [written, List.cons_append, List.cons_prefix_cons, string]
  exact and_iff_left List.nil_prefix

theorem Plain.begins_brace_iff {value : Json} (plain : Plain value) (rest : Bytes) :
    [openBrace] <+: spell value.chars ++ rest ↔ value.isObject = true := by
  obtain ⟨b, more, written, -, object⟩ := plain.first_byte
  rw [written, List.cons_append, List.cons_prefix_cons, object]
  exact and_iff_left List.nil_prefix

/-- A string is taken up to its closing quotation mark. -/
theorem PlainText.untilQuote {s : String} (plain : PlainText s) (rest : Bytes) :
    Scan.untilQuote (encode s ++ quote :: rest) = encode s :=
  Scan.untilQuote_of_notMem plain.noQuote rest

/-- A value that does not begin with a blank or a digit shows nothing, unless it is a
string. -/
theorem looseValue_cons {b : UInt8} (notSpace : b ≠ space) (notQuote : b ≠ quote)
    (noDigit : Bytes.isDigit b = false) (more : Bytes) :
    Scan.looseValue (b :: more) = [] := by
  rw [Scan.looseValue, List.dropWhile_cons_of_neg (by simpa using notSpace)]
  show (if b = quote then Scan.untilQuote more else (b :: more).takeWhile Bytes.isDigit) = []
  rw [if_neg notQuote, List.takeWhile_cons_of_neg (by simp [noDigit])]

/-- Digits are taken up to what ends them. -/
theorem looseValue_digits {digits : Bytes} (nonempty : digits ≠ [])
    (each : ∀ b ∈ digits, Bytes.isDigit b = true) (ends : Ends rest) :
    Scan.looseValue (digits ++ rest) = digits := by
  have stops : rest.takeWhile Bytes.isDigit = [] := by
    cases rest with
    | nil => rfl
    | cons b rest =>
      have none : separators.all (!Bytes.isDigit ·) = true := by decide
      have noDigit := List.all_eq_true.mp none b (ends b rfl)
      rw [List.takeWhile_cons_of_neg (by simpa using noDigit)]
  have taken : (digits ++ rest).takeWhile Bytes.isDigit = digits := by
    rw [List.takeWhile_append_of_pos each, stops, List.append_nil]
  cases digits with
  | nil => exact absurd rfl nonempty
  | cons b digits =>
    have digit := each b List.mem_cons_self
    have other {c : UInt8} (noDigit : Bytes.isDigit c = false) : b ≠ c := by
      rintro rfl
      rw [digit] at noDigit
      cases noDigit
    have notSpace : b ≠ space := other (by decide)
    have notQuote : b ≠ quote := other (by decide)
    rw [Scan.looseValue, List.cons_append, List.dropWhile_cons_of_neg (by simpa using notSpace)]
    show (if b = quote then Scan.untilQuote (digits ++ rest)
      else (b :: (digits ++ rest)).takeWhile Bytes.isDigit) = b :: digits
    rw [if_neg notQuote]
    exact taken

/-- **What a scan takes of a value is what it shows.** -/
theorem Plain.looseValue {value : Json} (plain : Plain value) (ends : Ends rest) :
    Scan.looseValue (spell value.chars ++ rest) = encode value.shown := by
  cases plain with
  | null => exact looseValue_cons (by decide) (by decide) (by decide) _
  | bool b => cases b <;> exact looseValue_cons (by decide) (by decide) (by decide) _
  | nat n =>
    have nonempty : spell (Nat.toDigits 10 n) ≠ [] := fun empty =>
      Nat.toDigits_ne_nil (spell_injective (t := []) empty)
    have digits : (Json.nat n).shown = String.ofList (Nat.toDigits 10 n) :=
      Nat.repr_eq_ofList_toDigits
    rw [digits, encode_ofList]
    exact looseValue_digits nonempty (fun b mem => isDigit_of_mem_spell_toDigits mem) ends
  | @string s plain =>
    rw [chars, plain.spell_stringChars, List.cons_append, List.append_assoc]
    exact plain.untilQuote rest
  | array => exact looseValue_cons (by decide) (by decide) (by decide) _
  | object => exact looseValue_cons (by decide) (by decide) (by decide) _

/-! ## Braces -/

/-- Bytes without braces are passed, under any count of open braces. -/
theorem balanced_append {front : Bytes} (noOpen : openBrace ∉ front) (noClose : closeBrace ∉ front)
    (depth : Nat) (rest : Bytes) :
    Scan.balanced depth (front ++ rest) = front ++ Scan.balanced depth rest := by
  induction front with
  | nil => rfl
  | cons b front ih =>
    rw [List.mem_cons, not_or] at noOpen noClose
    rw [List.cons_append, Scan.balanced, if_neg (Ne.symm noOpen.1), if_neg (Ne.symm noClose.1),
      ih noOpen.2 noClose.2]
    rfl

/-- A brace that closes an inner object is passed. -/
theorem balanced_close (depth : Nat) (rest : Bytes) :
    Scan.balanced (depth + 2) (closeBrace :: rest)
      = closeBrace :: Scan.balanced (depth + 1) rest := by
  rw [Scan.balanced, if_neg (by decide), if_pos rfl, if_neg (by omega)]
  rfl

/-- Inside an object, the text is passed together with all the braces in it. -/
def Passes (s : List Char) : Prop :=
  ∀ (depth : Nat) (rest : Bytes),
    Scan.balanced (depth + 1) (spell s ++ rest) = spell s ++ Scan.balanced (depth + 1) rest

theorem passes_of_notMem {s : List Char} (noOpen : openBrace ∉ spell s)
    (noClose : closeBrace ∉ spell s) : Passes s :=
  fun depth rest => balanced_append noOpen noClose (depth + 1) rest

theorem Passes.append {s t : List Char} (first : Passes s) (second : Passes t) :
    Passes (s ++ t) := by
  intro depth rest
  rw [spell_append, List.append_assoc, first, second, List.append_assoc]

theorem PlainText.passes {s : String} (plain : PlainText s) : Passes (stringChars s) := by
  apply passes_of_notMem
  · rw [plain.spell_stringChars]
    have mark : openBrace ≠ quote := by decide
    simp [plain.noOpenBrace, mark]
  · rw [plain.spell_stringChars]
    have mark : closeBrace ≠ quote := by decide
    simp [plain.noCloseBrace, mark]

theorem passes_items {items : List Json} (each : ∀ item ∈ items, Passes item.chars) :
    Passes (itemsChars items) := by
  induction items with
  | nil => exact passes_of_notMem (by decide) (by decide)
  | cons item items ih =>
    have first := each item List.mem_cons_self
    cases items with
    | nil => exact first
    | cons next items =>
      have commas : Passes [','] := passes_of_notMem (by decide) (by decide)
      exact first.append (commas.append (ih fun i mem => each i (List.mem_cons_of_mem _ mem)))

theorem passes_members {members : List (String × Json)}
    (names : ∀ member ∈ members, PlainText member.1)
    (each : ∀ member ∈ members, Passes member.2.chars) : Passes (membersChars members) := by
  induction members with
  | nil => exact passes_of_notMem (by decide) (by decide)
  | cons member members ih =>
    obtain ⟨name, value⟩ := member
    have named : Passes (stringChars name) := (names (name, value) List.mem_cons_self).passes
    have first : Passes value.chars := each (name, value) List.mem_cons_self
    have colons : Passes [':'] := passes_of_notMem (by decide) (by decide)
    cases members with
    | nil => exact named.append (colons.append first)
    | cons next members =>
      have commas : Passes [','] := passes_of_notMem (by decide) (by decide)
      have later := ih (fun m mem => names m (List.mem_cons_of_mem _ mem))
        (fun m mem => each m (List.mem_cons_of_mem _ mem))
      exact named.append (colons.append (first.append (commas.append later)))

theorem spell_object (members : List (String × Json)) :
    spell (chars (.object members))
      = openBrace :: (spell (membersChars members) ++ [closeBrace]) := by
  rw [chars, spell_cons, spell_append]
  rfl

/-- The braces of a plain value are balanced. -/
theorem Plain.passes {value : Json} (plain : Plain value) : Passes value.chars := by
  induction plain with
  | null => exact passes_of_notMem (by decide) (by decide)
  | bool b => cases b <;> exact passes_of_notMem (by decide) (by decide)
  | nat n =>
    exact passes_of_notMem (notMem_spell_toDigits (by decide) n)
      (notMem_spell_toDigits (by decide) n)
  | string plain => exact plain.passes
  | array _ ih =>
    have opens : Passes ['['] := passes_of_notMem (by decide) (by decide)
    have closes : Passes [']'] := passes_of_notMem (by decide) (by decide)
    exact opens.append ((passes_items ih).append closes)
  | @object members names _ ih =>
    intro depth rest
    rw [spell_object, List.cons_append, List.append_assoc, Scan.balanced, if_pos rfl,
      passes_members names ih]
    simp only [List.cons_append, List.append_assoc, List.nil_append, balanced_close]

/-- **An object is taken up to its closing brace.** -/
theorem Plain.balanced_object {members : List (String × Json)} (plain : Plain (.object members))
    (rest : Bytes) :
    Scan.balanced 0 (spell (chars (.object members)) ++ rest)
      = spell (chars (.object members)) := by
  cases plain with
  | object names each =>
    have inside := passes_members names fun member mem => (each member mem).passes
    have last : Scan.balanced 1 (closeBrace :: rest) = [closeBrace] := by
      rw [Scan.balanced, if_neg (by decide), if_pos rfl, if_pos rfl]
    rw [spell_object, List.cons_append, List.append_assoc, Scan.balanced, if_pos rfl, inside,
      List.singleton_append, last]

/-! ## What the scans find -/

/-- What is found in one of two related lists is found in the other. -/
theorem map_find?_of_forall₂ {α β γ : Type} {R : α → β → Prop} {as : List α} {bs : List β}
    (related : List.Forall₂ R as bs) {p : α → Bool} {q : β → Bool} {f : α → γ} {g : β → γ}
    (picks : ∀ a b, R a b → q b = p a) (gives : ∀ a b, R a b → p a = true → g b = f a) :
    (bs.find? q).map g = (as.find? p).map f := by
  induction related with
  | nil => rfl
  | @cons a b as bs here _ ih =>
    by_cases picked : p a = true
    · rw [List.find?_cons_of_pos picked, List.find?_cons_of_pos ((picks a b here).trans picked),
        Option.map_some, Option.map_some, gives a b here picked]
    · rw [List.find?_cons_of_neg picked,
        List.find?_cons_of_neg (by rw [picks a b here]; exact picked), ih]

theorem Stands.name_iff {member : String × Json} {place : Bytes × Bytes}
    (stands : Stands member place) (key : String) : place.1 = encode key ↔ member.1 = key := by
  rw [stands.name, encode_inj]

section Scans

variable {value : Json} {key : String}

theorem getD_map_encode (found : Option String) :
    (found.map encode).getD [] = encode (found.getD "") := by
  cases found <;> rfl

/-- The first string under a name. -/
theorem Plain.closeSlice_text (plain : Plain value) (word : Word (encode key)) :
    Scan.closeSlice (encode value.text) (encode key)
      = ((value.labels.find? fun m => m.1 = key && m.2.isString).map
          fun m => encode m.2.shown).getD [] := by
  obtain ⟨places, stand, labelled⟩ := plain.labelled_text
  rw [labelled.closeSlice word]
  congr 1
  refine map_find?_of_forall₂ stand ?_ ?_
  · intro m l stands
    obtain ⟨rest, written, -⟩ := stands.value
    rw [written, Bool.eq_iff_iff, decide_eq_true_eq, Bool.and_eq_true, decide_eq_true_eq,
      stands.name_iff, stands.plain.begins_quote_iff]
  · intro m l stands picked
    obtain ⟨rest, written, -⟩ := stands.value
    obtain ⟨-, string⟩ := Bool.and_eq_true_iff.mp picked
    rw [written]
    obtain ⟨name, v⟩ := m
    cases v <;> cases string
    cases stands.plain with
    | string plain =>
      show Scan.untilQuote ((spell (stringChars _) ++ rest).drop 1) = _
      rw [plain.spell_stringChars, List.cons_append, List.append_assoc]
      exact plain.untilQuote rest

/-- The first value under a name. -/
theorem Plain.looseSlice_text (plain : Plain value) (word : Word (encode key)) :
    Scan.looseSlice (encode value.text) (encode key)
      = ((value.labels.find? (·.1 = key)).map fun m => encode m.2.shown).getD [] := by
  obtain ⟨places, stand, labelled⟩ := plain.labelled_text
  rw [labelled.looseSlice word]
  congr 1
  refine map_find?_of_forall₂ stand ?_ ?_
  · intro m l stands
    rw [decide_eq_decide, stands.name_iff]
  · intro m l stands _
    obtain ⟨rest, written, ends⟩ := stands.value
    rw [written, stands.plain.looseValue ends]

/-- **A field is the first string under its name, and what the first value under its
name shows where that string is empty or missing.** -/
theorem Plain.field_text (plain : Plain value) (word : Word (encode key)) :
    Scan.field value.text key
      = let quoted := ((value.labels.find? fun m => m.1 = key && m.2.isString).map
          (·.2.shown)).getD ""
        if quoted = "" then ((value.labels.find? (·.1 = key)).map (·.2.shown)).getD ""
        else quoted := by
  have close := plain.closeSlice_text word
  have loose := plain.looseSlice_text word
  rw [← Function.comp_def encode, ← Option.map_map, getD_map_encode] at close loose
  rw [Scan.field, Scan.fieldSlice, close, loose]
  generalize ((value.labels.find? fun m => m.1 = key && m.2.isString).map (·.2.shown)).getD ""
    = quoted
  by_cases empty : quoted = ""
  · subst empty
    exact decodeOrEmpty_encode _
  · have nonempty : (encode quoted).isEmpty = false := by
      rw [List.isEmpty_eq_false_iff, ne_eq, encode_eq_nil]
      exact empty
    simp only [nonempty, Bool.false_eq_true, if_false, decodeOrEmpty_encode, if_neg empty]

/-- Where the values under a name are all strings or all none, a field is what the
first of them shows. -/
theorem Plain.field_text_of_uniform (plain : Plain value) (word : Word (encode key)) (string : Bool)
    (uniform : ∀ m ∈ value.labels, m.1 = key → m.2.isString = string) :
    Scan.field value.text key = ((value.labels.find? (·.1 = key)).map (·.2.shown)).getD "" := by
  rw [plain.field_text word]
  cases string with
  | true =>
    have same : (value.labels.find? fun m => m.1 = key && m.2.isString)
        = value.labels.find? (·.1 = key) := by
      apply List.find?_congr
      intro m mem
      by_cases named : m.1 = key
      · simp [named, uniform m mem named]
      · simp [named]
    rw [same]
    exact ite_self _
  | false =>
    have none : (value.labels.find? fun m => m.1 = key && m.2.isString) = none := by
      rw [List.find?_eq_none]
      intro m mem picked
      rw [Bool.and_eq_true, decide_eq_true_eq] at picked
      have other := uniform m mem picked.1
      rw [picked.2] at other
      cases other
    rw [none]
    rfl

/-- **An object is the text of the first object under its name.** -/
theorem Plain.object_text (plain : Plain value) (word : Word (encode key)) :
    Scan.object value.text key
      = ((value.labels.find? fun m => m.1 = key && m.2.isObject).map (·.2.text)).getD "" := by
  obtain ⟨places, stand, labelled⟩ := plain.labelled_text
  have slice : Scan.objectSlice (encode value.text) (encode key)
      = ((value.labels.find? fun m => m.1 = key && m.2.isObject).map
          fun m => encode m.2.text).getD [] := by
    rw [labelled.objectSlice word]
    congr 1
    refine map_find?_of_forall₂ stand ?_ ?_
    · intro m l stands
      obtain ⟨rest, written, -⟩ := stands.value
      rw [written, Bool.eq_iff_iff, decide_eq_true_eq, Bool.and_eq_true, decide_eq_true_eq,
        stands.name_iff, stands.plain.begins_brace_iff]
    · intro m l stands picked
      obtain ⟨rest, written, -⟩ := stands.value
      obtain ⟨-, object⟩ := Bool.and_eq_true_iff.mp picked
      have plainValue := stands.plain
      obtain ⟨name, v⟩ := m
      cases v <;> cases object
      rw [written, plainValue.balanced_object, text, encode_ofList]
  rw [← Function.comp_def encode, ← Option.map_map, getD_map_encode] at slice
  rw [Scan.object, slice, decodeOrEmpty_encode]

/-- **A name occurs as often as it names a member.** -/
theorem Plain.occurrences_text (plain : Plain value) (word : Word (encode key)) :
    Bytes.occurrences (Scan.pattern (encode key) [colon]) (encode value.text)
      = value.labels.countP (·.1 = key) := by
  obtain ⟨places, stand, labelled⟩ := plain.labelled_text
  rw [labelled.occurrences word]
  clear labelled
  generalize value.labels = members at stand ⊢
  induction stand with
  | nil => rfl
  | cons stands _ ih =>
    rw [List.countP_cons, List.countP_cons, ih]
    simp only [decide_eq_true_eq, stands.name_iff]

end Scans

end Json

end HostBoundary
