import HostBoundary.Proofs.FlatScan

/-!
# Two readers of one flat object

There are two ways to pick a text out of JSON without parsing it.  `Scan.field`
looks for the quoted key *with* its colon, and takes a quoted value directly
behind it.  `Scan.string?` looks for the quoted key alone, goes on to the next
colon, and takes what stands between the next two quotation marks.  On a general
text they have little to do with each other.

## Where they part

The reader without the colon is the one that is easily led astray: a *value*
that equals the key is as good to it as the key, and so is whatever stands
between two strings of the object.  It is led astray by nothing else.  When no
text of the object needs an escape, its quotation marks come in one order,

    { " key " : " value " , " key " : " value " }

and what stands between two neighbours is a key, a colon, a value, or a comma.
So a key that is none of the values, no bare colon and no bare comma is found
where it is a key (`Flat.behind?_marked_closing`), and from there the two readers
go the same way.

## Main results

* `Flat.valueBehind?_text` — the reader without the colon begins at the value that
  the scan with the colon finds.
* `Flat.readers_agree` — both readers give the first value under a key, and the
  readers of numbers and truth values give nothing.
-/

namespace HostBoundary

open Bytes Utf8

variable {key segment rest : Bytes}

/-! ## From one quotation mark to the next -/

/-- A quotation mark opens the key when the key is what stands before the next
one; else the search goes on at the next one. -/
theorem behind?_marked (noQuote : quote ∉ key) (noQuote' : quote ∉ segment) (rest : Bytes) :
    behind? (Scan.pattern key []) (quote :: (segment ++ quote :: rest))
      = if segment = key then some rest
        else behind? (Scan.pattern key []) (quote :: rest) := by
  split
  · next same =>
    have whole : quote :: (segment ++ quote :: rest) = Scan.pattern key [] ++ rest := by
      rw [Scan.pattern, same, List.cons_append, List.append_assoc]
      rfl
    rw [whole, behind?_of_begins (Scan.pattern_ne_nil _ _)]
  · next different =>
    have opening : ¬ Scan.pattern key [] <+: quote :: (segment ++ quote :: rest) := by
      intro begins
      obtain ⟨same, -⟩ := quoted_begins noQuote noQuote' (List.cons_prefix_cons.mp begins).2
      exact different same.symm
    rw [behind?_of_not_begins opening, Scan.pattern, behind?_append_of_notMem noQuote']

/-- The last quotation mark opens nothing. -/
theorem behind?_last_mark (noQuote : quote ∉ rest) :
    behind? (Scan.pattern key []) (quote :: rest) = none := by
  rw [behind?_eq_none_iff (Scan.pattern_ne_nil _ _)]
  intro occurs
  have marks := occurs.sublist.count_le quote
  rw [Scan.pattern, List.count_cons_self, List.count_append, List.count_cons_self,
    List.count_cons_self, List.count_eq_zero_of_not_mem noQuote] at marks
  omega

namespace Flat

variable {key : String} {pairs : List (String × String)}

/-! ## The key that is found -/

/-- No text of the pairs needs an escape, and no value is the key. -/
def Unmistakable (key : String) (pairs : List (String × String)) : Prop :=
  (∀ pair ∈ pairs, Plain pair.1 ∧ Plain pair.2) ∧ ∀ pair ∈ pairs, key ≠ pair.2

/-- The bytes of a pair that needs no escape, from the first of its four
quotation marks to what stands behind the last. -/
theorem spell_plain_pairChars {k v : String} (plainKey : Plain k) (plainValue : Plain v)
    (t : List Char) :
    spell (pairChars (k, v) ++ t)
      = quote :: (encode k ++ quote :: ([colon] ++ quote ::
          (encode v ++ quote :: spell t))) := by
  rw [spell_pairChars plainKey, escapeChars_of_plain plainValue, ← encode_eq_spell]
  rfl

/-- **Without its colon, too, a key is found where it is a key.**  The search
stands at the quotation mark that closes the string before. -/
theorem behind?_marked_closing (lookup : Lookup (encode key))
    (unmistakable : Unmistakable key pairs) :
    behind? (Scan.pattern (encode key) []) (quote :: spell (closing pairs))
      = (fromValue? key pairs).map (colon :: ·) := by
  obtain ⟨plain, notValue⟩ := unmistakable
  induction pairs with
  | nil => exact behind?_last_mark (by decide)
  | cons pair rest ih =>
    obtain ⟨k, v⟩ := pair
    rw [List.forall_mem_cons] at plain notValue
    obtain ⟨⟨plainKey, plainValue⟩, plainRest⟩ := plain
    have noComma : quote ∉ [comma] := by decide
    have noColon : quote ∉ [colon] := by decide
    have text : spell (closing ((k, v) :: rest))
        = [comma] ++ spell (pairChars (k, v) ++ closing rest) := rfl
    -- past the comma, and up to the key of the pair
    rw [text, spell_plain_pairChars plainKey plainValue,
      behind?_marked lookup.noQuote noComma, if_neg (Ne.symm lookup.ne_comma),
      behind?_marked lookup.noQuote plainKey.noQuote, fromValue?]
    by_cases same : k = key
    · rw [if_pos same, if_pos (congrArg encode same), escapeChars_of_plain plainValue,
        ← encode_eq_spell]
      rfl
    · -- past the colon and the value
      have different : encode k ≠ encode key := fun equal => same (encode_injective equal)
      have value : encode v ≠ encode key := fun equal => notValue.1 (encode_injective equal).symm
      rw [if_neg same, if_neg different,
        behind?_marked lookup.noQuote noColon, if_neg (Ne.symm lookup.ne_colon),
        behind?_marked lookup.noQuote plainValue.noQuote, if_neg value]
      exact ih plainRest notValue.2

theorem behind?_marked_text (lookup : Lookup (encode key))
    (unmistakable : Unmistakable key pairs) :
    behind? (Scan.pattern (encode key) []) (encode (text pairs))
      = (fromValue? key pairs).map (colon :: ·) := by
  rw [← behind?_marked_closing lookup unmistakable, text, encode_ofList]
  have brace_ne : openBrace ≠ quote := by decide
  cases pairs with
  | nil => exact (behind?_of_head_ne brace_ne).trans (behind?_last_mark (by decide)).symm
  | cons pair rest =>
    obtain ⟨plainKey, plainValue⟩ := unmistakable.1 pair List.mem_cons_self
    have noComma : quote ∉ [comma] := by decide
    have comma_text : spell (closing (pair :: rest))
        = [comma] ++ spell (pairChars (pair.1, pair.2) ++ closing rest) := rfl
    rw [pairsChars_append_closing, comma_text, spell_plain_pairChars plainKey plainValue,
      behind?_marked lookup.noQuote noComma, if_neg (Ne.symm lookup.ne_comma),
      ← spell_plain_pairChars plainKey plainValue]
    exact behind?_of_head_ne brace_ne

/-! ## What is read there -/

/-- **Both searches end at the same value.** -/
theorem valueBehind?_text (lookup : Lookup (encode key))
    (unmistakable : Unmistakable key pairs) :
    (behind? (Scan.pattern (encode key) []) (encode (text pairs))).bind Receipt.valueBehind?
      = fromValue? key pairs := by
  rw [behind?_marked_text lookup unmistakable]
  rcases fromValue?_eq key pairs with ⟨found, -⟩ | ⟨k, v, t, found, -⟩
  · rw [found]
    rfl
  · have noBlank : Scan.isSpaceOrTab quote = false := by decide
    have colons (back : Bytes) : behind? [colon] (colon :: back) = some back :=
      behind?_of_begins (List.cons_ne_nil colon []) back
    rw [found, Option.map_some, Option.bind_some, Receipt.valueBehind?, colons, Option.map_some,
      List.dropWhile_cons_of_neg (by simp [noBlank])]

/-- A quoted text is read up to its closing quotation mark. -/
theorem quotedPart?_quoted {bytes : Bytes} (noQuote : quote ∉ bytes) (t : Bytes) :
    Scan.quotedPart? (quote :: (bytes ++ quote :: t)) = some bytes := by
  have marks (back : Bytes) : behind? [quote] (quote :: back) = some back :=
    behind?_of_begins (List.cons_ne_nil quote []) back
  rw [Scan.quotedPart?, marks, Option.bind_some, behind?_append_of_notMem noQuote, marks,
    Option.map_some, Scan.untilQuote_of_notMem noQuote]

/-- The reader without the colon gives the first value under the key. -/
theorem string?_text (lookup : Lookup (encode key)) (unmistakable : Unmistakable key pairs) :
    Scan.string? (text pairs) key = (pairs.find? (·.1 == key)).map (·.2) := by
  rw [Scan.string?, Scan.stringSlice?_eq, valueBehind?_text lookup unmistakable]
  rcases fromValue?_eq key pairs with ⟨found, none⟩ | ⟨k, v, t, found, first⟩
  · rw [found, none]
    rfl
  · have plain : Plain v := (unmistakable.1 (k, v) (List.mem_of_find?_eq_some first)).2
    rw [found, first, Option.bind_some, escapeChars_of_plain plain, ← encode_eq_spell,
      quotedPart?_quoted plain.noQuote, Option.map_some, decodeOrEmpty_encode, Option.map_some]

/-- So does the scan with the colon. -/
theorem field_text_unmistakable (lookup : Lookup (encode key))
    (unmistakable : Unmistakable key pairs) :
    Scan.field (text pairs) key = ((pairs.find? (·.1 == key)).map (·.2)).getD "" := by
  rw [field_text lookup fun pair mem => (unmistakable.1 pair mem).1]
  cases first : pairs.find? (·.1 == key) with
  | none => rfl
  | some pair =>
    have plain : Plain pair.2 := (unmistakable.1 pair (List.mem_of_find?_eq_some first)).2
    rw [Option.map_some, Option.getD_some, shown_of_plain plain, String.ofList_toList]
    rfl

/-- A quoted text begins no number. -/
theorem number?_text (lookup : Lookup (encode key)) (unmistakable : Unmistakable key pairs) :
    Scan.number? (text pairs) key = none := by
  rw [Scan.number?, Scan.digitsSlice?_eq, valueBehind?_text lookup unmistakable]
  rcases fromValue?_eq key pairs with ⟨found, -⟩ | ⟨k, v, t, found, -⟩
  · rw [found]
    rfl
  · have noDigit : isDigit quote = false := by decide
    rw [found, Option.map_some, List.takeWhile_cons_of_neg (by simp [noDigit])]

/-- A quoted text begins no truth value. -/
theorem boolean?_text (lookup : Lookup (encode key)) (unmistakable : Unmistakable key pairs) :
    Scan.boolean? (text pairs) key = none := by
  rw [Scan.boolean?_eq, valueBehind?_text lookup unmistakable]
  rcases fromValue?_eq key pairs with ⟨found, -⟩ | ⟨k, v, t, found, -⟩
  · rw [found]
    rfl
  · rw [found]
    rfl

/-! ## Agreement -/

/-- **The two readers agree on flat objects.**  No text of the pairs needs an
escape, and neither does the key, which is no bare colon, no bare comma and none
of the values.  Then the reader without the colon gives what the scan with the
colon gives when a pair has the key, which is the value of the first such pair
and may be empty, and nothing when no pair has it; a number or a truth value is
not found either way. -/
theorem readers_agree (plainKey : Plain key) (notColon : key ≠ ":") (notComma : key ≠ ",")
    (plain : ∀ pair ∈ pairs, Plain pair.1 ∧ Plain pair.2)
    (notValue : ∀ pair ∈ pairs, key ≠ pair.2) :
    ((∃ pair ∈ pairs, pair.1 = key) →
      Scan.string? (text pairs) key = some (Scan.field (text pairs) key)) ∧
    ((∀ pair ∈ pairs, pair.1 ≠ key) → Scan.string? (text pairs) key = none) ∧
    (∀ before value after, pairs = before ++ (key, value) :: after →
      (∀ pair ∈ before, pair.1 ≠ key) → Scan.string? (text pairs) key = some value) ∧
    Scan.number? (text pairs) key = none ∧
    Scan.boolean? (text pairs) key = none := by
  have lookup : Lookup (encode key) := plainKey.lookup notColon notComma
  have unmistakable : Unmistakable key pairs := ⟨plain, notValue⟩
  have reads := string?_text lookup unmistakable
  have scans := field_text_unmistakable lookup unmistakable
  refine ⟨?_, ?_, ?_, number?_text lookup unmistakable, boolean?_text lookup unmistakable⟩
  · rintro ⟨pair, mem, same⟩
    obtain ⟨first, found⟩ : ∃ first, pairs.find? (·.1 == key) = some first := by
      rw [← Option.isSome_iff_exists, List.find?_isSome]
      exact ⟨pair, mem, beq_iff_eq.mpr same⟩
    rw [found] at reads scans
    rw [reads, scans]
    rfl
  · intro others
    have none : pairs.find? (·.1 == key) = none := by
      rw [List.find?_eq_none]
      intro pair mem
      simpa using others pair mem
    rw [reads, none]
    rfl
  · rintro before value after rfl others
    have first : (before ++ (key, value) :: after).find? (·.1 == key) = some (key, value) := by
      rw [List.find?_eq_some_iff_append]
      refine ⟨beq_self_eq_true key, before, after, rfl, ?_⟩
      intro pair mem
      simpa using others pair mem
    rw [reads, first]
    rfl

/-- Strings that look like what stands between two strings, and a key with two
values of which the first is empty. -/
theorem readers_agree_empty_value :
    let pairs := [(":", ","), ("to", ""), ("\x7d", "true"), ("to", "bob")]
    (Plain "to" ∧ "to" ≠ ":" ∧ "to" ≠ "," ∧ (∀ pair ∈ pairs, Plain pair.1 ∧ Plain pair.2) ∧
      ∀ pair ∈ pairs, "to" ≠ pair.2) ∧
    Scan.string? (text pairs) "to" = some "" ∧ Scan.field (text pairs) "to" = "" := by
  intro pairs
  have plainKey : Plain "to" := by decide
  have notColon : "to" ≠ ":" := by decide
  have notComma : "to" ≠ "," := by decide
  have plain : ∀ pair ∈ pairs, Plain pair.1 ∧ Plain pair.2 := by decide
  have notValue : ∀ pair ∈ pairs, "to" ≠ pair.2 := by decide
  obtain ⟨agree, -, first, -⟩ := readers_agree plainKey notColon notComma plain notValue
  have reads : Scan.string? (text pairs) "to" = some "" :=
    first [(":", ",")] "" [("\x7d", "true"), ("to", "bob")] rfl (by decide)
  have agrees := agree ⟨("to", ""), by decide, rfl⟩
  rw [reads] at agrees
  exact ⟨⟨plainKey, notColon, notComma, plain, notValue⟩, reads, (Option.some.inj agrees).symm⟩

end Flat

end HostBoundary
