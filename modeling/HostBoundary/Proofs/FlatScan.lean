import HostBoundary.Json.Flat
import HostBoundary.Proofs.Search
import HostBoundary.Proofs.Spelling
import HostBoundary.Text.Decimal

/-!
# Scanning a flat object

A scan looks for a quoted key, wherever it stands.  In a flat object it still
finds the values that the object has, and no others, even when the values were
chosen by an adversary.

## Why no value can pretend to be a key

A pattern begins with a quotation mark, runs to the *next* one over bytes that
are neither quotation marks nor backslashes, and goes on with a colon.  In the
text of a flat object a quotation mark is one of five:

* one that opens a key, where the next one closes it and the pattern is that key;
* one that closes a key, where the colon stands before the next one;
* one that opens a value, or is escaped inside of one.  The next one is escaped
  too, and then a backslash stands before it; or it closes the value, and then no
  colon follows;
* one that closes a value, where a comma stands before the next one, if there is
  a next one at all.

So a key other than a bare colon or a bare comma is found where it is a key.
-/

namespace HostBoundary

namespace Bytes

/-- The backslash. -/
def backslash : UInt8 := 92

/-- The comma. -/
def comma : UInt8 := 44

end Bytes

open Bytes Utf8

/-! ## The inside of a string -/

/-- Bytes in which a backslash takes the next byte along, and in which a
quotation mark stands only where a backslash took it. -/
inductive Escaped : Bytes → Prop
  | nil : Escaped []
  | plain {b : UInt8} {rest : Bytes} (notQuote : b ≠ quote) (notBackslash : b ≠ backslash)
      (escaped : Escaped rest) : Escaped (b :: rest)
  | pair (b : UInt8) {rest : Bytes} (escaped : Escaped rest) : Escaped (backslash :: b :: rest)

theorem Escaped.append {front back : Bytes} (first : Escaped front) (second : Escaped back) :
    Escaped (front ++ back) := by
  induction first with
  | nil => exact second
  | plain notQuote notBackslash _ ih => exact .plain notQuote notBackslash ih
  | pair b _ ih => exact .pair b ih

theorem Escaped.of_plain {bytes : Bytes} (noQuote : quote ∉ bytes)
    (noBackslash : backslash ∉ bytes) : Escaped bytes := by
  induction bytes with
  | nil => exact .nil
  | cons b rest ih =>
    rw [List.mem_cons, not_or] at noQuote noBackslash
    exact .plain (Ne.symm noQuote.1) (Ne.symm noBackslash.1) (ih noQuote.2 noBackslash.2)

theorem quote_mem_spell {s : List Char} : quote ∈ spell s ↔ '"' ∈ s :=
  mem_spell_iff (by decide) rfl

theorem backslash_mem_spell {s : List Char} : backslash ∈ spell s ↔ '\\' ∈ s :=
  mem_spell_iff (by decide) rfl

namespace Flat

/-- A text is escaped character by character. -/
theorem escapeChars_cons (c : Char) (s : List Char) :
    escapeChars (c :: s) = escapeChar c ++ escapeChars s := rfl

/-- What is written inside a string is escaped. -/
theorem escaped_escapeChars (s : List Char) : Escaped (spell (escapeChars s)) := by
  induction s with
  | nil => exact .nil
  | cons c s ih =>
    have step : Escaped (spell (escapeChar c)) := by
      unfold escapeChar
      iterate 5
        split
        · exact .pair _ .nil
      next notQuote notBackslash _ _ _ =>
      refine .of_plain ?_ ?_
      · rw [quote_mem_spell, List.mem_singleton]
        exact Ne.symm notQuote
      · rw [backslash_mem_spell, List.mem_singleton]
        exact Ne.symm notBackslash
    rw [escapeChars_cons, spell_append]
    exact step.append ih

end Flat

/-! ## Quotation marks that open no key -/

/-- A key that can be looked up in a flat object: it has no quotation mark and no
backslash, and is not what stands between two strings. -/
structure Lookup (key : Bytes) : Prop where
  noQuote : quote ∉ key
  noBackslash : backslash ∉ key
  ne_colon : key ≠ [colon]
  ne_comma : key ≠ [comma]

variable {key k suffix body tail rest : Bytes}

/-- Up to the first quotation mark there is only one way to read a text. -/
theorem quoted_begins (noQuote : quote ∉ key) (noQuote' : quote ∉ k)
    (begins : key ++ quote :: suffix <+: k ++ quote :: tail) : key = k ∧ suffix <+: tail := by
  -- byte by byte; the one that ends first meets a quotation mark inside the other
  induction key generalizing k with
  | nil =>
    cases k with
    | nil => exact ⟨rfl, (List.cons_prefix_cons.mp begins).2⟩
    | cons b k =>
      rw [List.mem_cons, not_or] at noQuote'
      exact absurd (List.cons_prefix_cons.mp begins).1 noQuote'.1
  | cons a key ih =>
    rw [List.mem_cons, not_or] at noQuote
    cases k with
    | nil => exact absurd (List.cons_prefix_cons.mp begins).1.symm noQuote.1
    | cons b k =>
      rw [List.mem_cons, not_or] at noQuote'
      obtain ⟨rfl, more⟩ := List.cons_prefix_cons.mp begins
      obtain ⟨rfl, rest⟩ := ih noQuote.2 noQuote'.2 more
      exact ⟨rfl, rest⟩

/-- A quotation mark in front of the inside of a string opens no key: behind the
next one there is no colon, or there is a backslash before it. -/
theorem not_prefix_body (lookup : Lookup key) (escaped : Escaped body)
    (noColon : ¬ [colon] <+: tail) :
    ¬ key ++ quote :: colon :: suffix <+: body ++ quote :: tail := by
  obtain ⟨noQuote, noBackslash, -, -⟩ := lookup
  -- along the string, with the key getting shorter as its bytes are met
  induction escaped generalizing key with
  | nil =>
    intro begins
    obtain ⟨-, rest⟩ := quoted_begins noQuote List.not_mem_nil begins
    exact noColon (List.IsPrefix.trans ⟨suffix, rfl⟩ rest)
  | @plain b body notQuote notBackslash _ ih =>
    intro begins
    cases key with
    | nil => exact notQuote (List.cons_prefix_cons.mp begins).1.symm
    | cons a key =>
      rw [List.mem_cons, not_or] at noQuote noBackslash
      exact ih noQuote.2 noBackslash.2 (List.cons_prefix_cons.mp begins).2
  | pair b _ ih =>
    intro begins
    cases key with
    | nil => exact absurd (List.cons_prefix_cons.mp begins).1 (by decide)
    | cons a key =>
      rw [List.mem_cons, not_or] at noBackslash
      exact noBackslash.1 (List.cons_prefix_cons.mp begins).1.symm

/-- No key is found inside a string, and none at its closing quotation mark if
none is found behind that. -/
theorem behind?_body (lookup : Lookup key) (escaped : Escaped body)
    (noColon : ¬ [colon] <+: tail) (noKey : ¬ key ++ quote :: colon :: suffix <+: tail) :
    behind? (Scan.pattern key (colon :: suffix)) (body ++ quote :: tail)
      = behind? (Scan.pattern key (colon :: suffix)) tail := by
  -- a quotation mark is passed when the key does not go on behind it
  have passed {rest : Bytes} (absent : ¬ key ++ quote :: colon :: suffix <+: rest) :
      behind? (Scan.pattern key (colon :: suffix)) (quote :: rest)
        = behind? (Scan.pattern key (colon :: suffix)) rest :=
    behind?_of_not_begins fun begins => absent (List.cons_prefix_cons.mp begins).2
  induction escaped with
  | nil => exact passed noKey
  | plain notQuote _ _ ih =>
    rw [List.cons_append, Scan.pattern, behind?_of_head_ne notQuote]
    exact ih
  | @pair b body escaped ih =>
    have apart : backslash ≠ quote := by decide
    rw [List.cons_append, List.cons_append, Scan.pattern, behind?_of_head_ne apart,
      ← Scan.pattern]
    by_cases isQuote : b = quote
    · -- an escaped quotation mark is the one that could open the key
      rw [isQuote, passed (not_prefix_body lookup escaped noColon)]
      exact ih
    · rw [Scan.pattern, behind?_of_head_ne isQuote]
      exact ih

/-! ## The keys of a flat object -/

namespace Flat

/-- The characters that are written with a backslash. -/
def escapedChars : List Char := ['"', '\\', '\n', '\r', '\t']

/-- No character is written with a backslash. -/
def Plain (text : String) : Prop := ∀ c ∈ text.toList, c ∉ escapedChars

instance (text : String) : Decidable (Plain text) :=
  decidable_of_iff (text.toList.all fun c => !escapedChars.contains c) (by simp [Plain])

theorem escapeChar_of_notMem {c : Char} (plain : c ∉ escapedChars) : escapeChar c = [c] := by
  simp only [escapedChars, List.mem_cons, List.not_mem_nil, or_false, not_or] at plain
  obtain ⟨notQuote, notBackslash, notLineFeed, notReturn, notTab⟩ := plain
  rw [escapeChar, if_neg notQuote, if_neg notBackslash, if_neg notLineFeed, if_neg notReturn,
    if_neg notTab]

theorem escapeChars_of_plain {text : String} (plain : Plain text) :
    escapeChars text.toList = text.toList := by
  have each : ∀ s : List Char, (∀ c ∈ s, c ∉ escapedChars) → escapeChars s = s := by
    intro s plain
    induction s with
    | nil => rfl
    | cons c s ih =>
      rw [escapeChars_cons, escapeChar_of_notMem (plain c List.mem_cons_self),
        ih fun d mem => plain d (List.mem_cons_of_mem _ mem)]
      rfl
  exact each text.toList plain

theorem Plain.noQuote {text : String} (plain : Plain text) : quote ∉ encode text := by
  rw [encode_eq_spell, quote_mem_spell]
  exact fun mem => plain _ mem (by decide)

theorem Plain.noBackslash {text : String} (plain : Plain text) : backslash ∉ encode text := by
  rw [encode_eq_spell, backslash_mem_spell]
  exact fun mem => plain _ mem (by decide)

/-- A key without escaped characters can be looked up, unless it is a bare
colon or a bare comma. -/
theorem Plain.lookup {text : String} (plain : Plain text) (ne_colon : text ≠ ":")
    (ne_comma : text ≠ ",") : Lookup (encode text) where
  noQuote := plain.noQuote
  noBackslash := plain.noBackslash
  ne_colon same := ne_colon (encode_injective same)
  ne_comma same := ne_comma (encode_injective same)

/-- The bytes of a pair with a key that needs no escape. -/
theorem spell_pairChars {k : String} (plain : Plain k) (v : String) (t : List Char) :
    spell (pairChars (k, v) ++ t)
      = quote :: (encode k ++ quote :: colon :: quote ::
          (spell (escapeChars v.toList) ++ quote :: spell t)) := by
  have quotes : ∀ s, spell ('"' :: s) = quote :: spell s := fun _ => rfl
  have colons : ∀ s, spell (':' :: s) = colon :: spell s := fun _ => rfl
  simp only [pairChars, stringChars, escapeChars_of_plain plain, List.cons_append,
    List.append_assoc, spell_append, quotes, colons, List.nil_append, encode_eq_spell]

/-- One pair either has the key, and then its value stands behind the key's
colon, or it is passed as a whole. -/
theorem behind?_pair (lookup : Lookup key) (short : suffix <+: [quote]) {k : String}
    (plain : Plain k) (v : String) {t : List Char} (noColon : ¬ [colon] <+: spell t)
    (noKey : ¬ key ++ quote :: colon :: suffix <+: spell t) :
    behind? (Scan.pattern key (colon :: suffix)) (spell (pairChars (k, v) ++ t))
      = if key = encode k then
          some ((quote :: (spell (escapeChars v.toList) ++ quote :: spell t)).drop suffix.length)
        else behind? (Scan.pattern key (colon :: suffix)) (spell t) := by
  rw [spell_pairChars plain]
  have escaped := escaped_escapeChars v.toList
  generalize spell (escapeChars v.toList) = body at escaped ⊢
  split
  · next same =>
    have opens : suffix <+: quote :: (body ++ quote :: spell t) := short.trans ⟨_, rfl⟩
    have whole : quote :: (encode k ++ quote :: colon :: quote :: (body ++ quote :: spell t))
        = Scan.pattern key (colon :: suffix)
          ++ (quote :: (body ++ quote :: spell t)).drop suffix.length := by
      rw [Scan.pattern, same, List.cons_append, List.append_assoc, List.cons_append,
        List.cons_append, List.prefix_iff_eq_append.mp opens]
    rw [whole, behind?_of_begins (Scan.pattern_ne_nil _ _)]
  · next different =>
    -- none of the quotation marks of the pair opens the key
    have opening : ¬ Scan.pattern key (colon :: suffix) <+:
        quote :: (encode k ++ quote :: colon :: quote :: (body ++ quote :: spell t)) :=
      fun begins => different
        (quoted_begins lookup.noQuote plain.noQuote (List.cons_prefix_cons.mp begins).2).1
    have between : quote ∉ [colon] := by decide
    have closing : ¬ Scan.pattern key (colon :: suffix) <+:
        quote :: ([colon] ++ quote :: (body ++ quote :: spell t)) :=
      fun begins => lookup.ne_colon
        (quoted_begins lookup.noQuote between (List.cons_prefix_cons.mp begins).2).1
    have value : ¬ Scan.pattern key (colon :: suffix) <+: quote :: (body ++ quote :: spell t) :=
      fun begins => not_prefix_body lookup escaped noColon (List.cons_prefix_cons.mp begins).2
    rw [behind?_of_not_begins opening, Scan.pattern, behind?_append_of_notMem plain.noQuote,
      ← Scan.pattern]
    refine (behind?_of_not_begins closing).trans ?_
    rw [Scan.pattern, behind?_append_of_notMem between, ← Scan.pattern,
      behind?_of_not_begins value, behind?_body lookup escaped noColon noKey]

/-! ## The whole text -/

/-- What stands behind a pair: the closing brace, or a comma and more pairs. -/
def closing : List (String × String) → List Char
  | [] => ['}']
  | pair :: rest => ',' :: (pairChars pair ++ closing rest)

theorem pairsChars_append_closing (pair : String × String) (rest : List (String × String)) :
    pairsChars (pair :: rest) ++ ['}'] = pairChars pair ++ closing rest := by
  induction rest generalizing pair with
  | nil => rfl
  | cons next rest ih =>
    rw [pairsChars, closing, List.append_assoc, List.cons_append, ih]

theorem not_colon_prefix_closing (pairs : List (String × String)) :
    ¬ [colon] <+: spell (closing pairs) := by
  cases pairs with
  | nil => decide
  | cons pair rest =>
    intro begins
    exact absurd (List.cons_prefix_cons.mp begins).1 (by decide)

/-- No key is found behind the closing quotation mark of a value. -/
theorem not_key_prefix_closing (lookup : Lookup key) {pairs : List (String × String)}
    (plain : ∀ pair ∈ pairs, Plain pair.1) :
    ¬ key ++ quote :: suffix <+: spell (closing pairs) := by
  cases pairs with
  | nil =>
    intro begins
    have mem : quote ∈ spell (closing []) := begins.subset (by simp)
    exact absurd mem (by decide)
  | cons pair rest =>
    intro begins
    have between : quote ∉ [comma] := by decide
    have text : spell (closing (pair :: rest))
        = [comma] ++ spell (pairChars (pair.1, pair.2) ++ closing rest) := rfl
    rw [text, spell_pairChars (plain pair List.mem_cons_self)] at begins
    exact lookup.ne_comma (quoted_begins lookup.noQuote between begins).1

/-- The bytes from the opening quotation mark of the first value under a key on. -/
def fromValue? (key : String) : List (String × String) → Option Bytes
  | [] => none
  | (k, v) :: rest =>
    if k = key then
      some (quote :: (spell (escapeChars v.toList) ++ quote :: spell (closing rest)))
    else fromValue? key rest

/-- **A scan finds the keys of a flat object and nothing else.** -/
theorem behind?_closing {key : String} (lookup : Lookup (encode key))
    (short : suffix <+: [quote]) {pairs : List (String × String)}
    (plain : ∀ pair ∈ pairs, Plain pair.1) :
    behind? (Scan.pattern (encode key) (colon :: suffix)) (spell (closing pairs))
      = (fromValue? key pairs).map (·.drop suffix.length) := by
  induction pairs with
  | nil =>
    have absent : quote ∉ spell (closing []) := by decide
    have skipped : behind? (Scan.pattern (encode key) (colon :: suffix))
        (spell (closing []) ++ []) = none := behind?_append_of_notMem absent
    rwa [List.append_nil] at skipped
  | cons pair rest ih =>
    obtain ⟨k, v⟩ := pair
    have plainRest : ∀ pair ∈ rest, Plain pair.1 :=
      fun pair mem => plain pair (List.mem_cons_of_mem _ mem)
    have comma_ne : comma ≠ quote := by decide
    have text : spell (closing ((k, v) :: rest))
        = comma :: spell (pairChars (k, v) ++ closing rest) := rfl
    rw [text, Scan.pattern, behind?_of_head_ne comma_ne, ← Scan.pattern,
      behind?_pair lookup short (plain (k, v) List.mem_cons_self) v
        (not_colon_prefix_closing rest) (not_key_prefix_closing lookup plainRest),
      ih plainRest, fromValue?]
    by_cases same : k = key
    · rw [if_pos same, if_pos (congrArg encode same.symm)]
      rfl
    · rw [if_neg same, if_neg fun equal => same (encode_injective equal).symm]

theorem behind?_text {key : String} (lookup : Lookup (encode key))
    (short : suffix <+: [quote]) {pairs : List (String × String)}
    (plain : ∀ pair ∈ pairs, Plain pair.1) :
    behind? (Scan.pattern (encode key) (colon :: suffix)) (encode (text pairs))
      = (fromValue? key pairs).map (·.drop suffix.length) := by
  rw [← behind?_closing lookup short plain, text, encode_ofList]
  cases pairs with
  | nil => rfl
  | cons pair rest =>
    -- a brace opens the text where a comma opens what is left of one
    have brace_ne : openBrace ≠ quote := by decide
    have comma_ne : comma ≠ quote := by decide
    rw [pairsChars_append_closing]
    exact (behind?_of_head_ne brace_ne).trans (behind?_of_head_ne comma_ne).symm

/-- What a scan shows of a value: its escaped form up to the first quotation mark. -/
def shown (value : String) : List Char := (escapeChars value.toList).takeWhile (· != '"')

theorem untilQuote_value (value : String) (t : Bytes) :
    Scan.untilQuote (spell (escapeChars value.toList) ++ quote :: t) = spell (shown value) := by
  rw [Scan.untilQuote_append, shown, ← takeWhile_spell (b := quote) (by decide) rfl]
  rfl

/-- The value that is found is that of the first pair with the key. -/
theorem fromValue?_eq (key : String) (pairs : List (String × String)) :
    (fromValue? key pairs = none ∧ pairs.find? (·.1 == key) = none) ∨
    ∃ k v t, fromValue? key pairs = some (quote :: (spell (escapeChars v.toList) ++ quote :: t)) ∧
      pairs.find? (·.1 == key) = some (k, v) := by
  induction pairs with
  | nil => exact .inl ⟨rfl, rfl⟩
  | cons pair rest ih =>
    obtain ⟨k, v⟩ := pair
    by_cases same : k = key
    · refine .inr ⟨k, v, spell (closing rest), if_pos same, ?_⟩
      rw [List.find?_cons_of_pos (by simpa using same)]
    · rw [fromValue?, if_neg same, List.find?_cons_of_neg (by simpa using same)]
      exact ih

/-- **No injection.**  A scan of a flat object finds the first value under a key,
up to its first quotation mark, whatever the values are; and nothing where no
pair has the key. -/
theorem field_text {key : String} (lookup : Lookup (encode key)) {pairs : List (String × String)}
    (plain : ∀ pair ∈ pairs, Plain pair.1) :
    Scan.field (text pairs) key
      = String.ofList (((pairs.find? (·.1 == key)).map fun pair => shown pair.2).getD []) := by
  have close := Scan.closeSlice_eq (encode (text pairs)) (encode key)
  have loose := Scan.looseSlice_eq (encode (text pairs)) (encode key)
  rw [behind?_text lookup (List.prefix_refl _) plain] at close
  rw [behind?_text lookup List.nil_prefix plain] at loose
  rw [Scan.field, Scan.fieldSlice]
  rcases fromValue?_eq key pairs with ⟨found, none⟩ | ⟨k, v, t, found, first⟩
  · rw [found] at close loose
    rw [close, loose, none]
    rfl
  · have closeValue : Scan.closeSlice (encode (text pairs)) (encode key) = spell (shown v) := by
      rw [close, found]
      exact untilQuote_value v t
    have looseValue : Scan.looseSlice (encode (text pairs)) (encode key) = spell (shown v) := by
      rw [loose, found]
      exact untilQuote_value v t
    rw [closeValue, looseValue, ite_self, first, ← encode_ofList, decodeOrEmpty_encode]
    rfl

theorem shown_of_plain {value : String} (plain : Plain value) : shown value = value.toList := by
  have noQuote : ∀ c ∈ value.toList, (c != '"') = true := by
    intro c mem
    rw [bne_iff_ne]
    rintro rfl
    exact plain _ mem (by decide)
  rw [shown, escapeChars_of_plain plain, ← List.append_nil value.toList]
  exact List.takeWhile_append_of_pos noQuote

/-- A number needs no escape. -/
theorem plain_decimal (n : UInt64) : Plain (decimal n) := by
  intro c mem escaped
  rw [decimal, Nat.repr, String.toList_ofList] at mem
  have digit : c.isDigit = true := Nat.isDigit_of_mem_toDigits (by decide) (by decide) mem
  have none : escapedChars.all (!·.isDigit) := by decide
  have noDigit := List.all_eq_true.mp none c escaped
  rw [digit] at noDigit
  cases noDigit

end Flat

end HostBoundary
