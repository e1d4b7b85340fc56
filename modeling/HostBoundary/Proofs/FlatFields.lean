import HostBoundary.Contract.TransferRequest
import HostBoundary.Proofs.Encodings
import HostBoundary.Proofs.FlatScan

/-!
# Fields of a flat object

What a scan finds in a flat object is the first value under the key, as far as
its escaped form goes without a quotation mark.  That is a statement about an
*adversary*: the keys are those of the program, the values are anybody's.

## What a value loses

The escape of a quotation mark is a backslash and the mark itself, so a value is
cut behind the backslash of its first escaped quotation mark, and the escapes
before it are not undone.  A value therefore comes back as it was exactly when
it needs no escape (`Flat.ofList_shown_eq_iff`).  It never comes back as
nothing, because an escape begins with a backslash and never with the mark.

## Transfer requests

The recipient and the amount of a request need no escape, and its token id
stands behind both of them.  So a hostile token id spoils itself and nothing
else (`TransferRequest.ofParams?_paramsText`).
-/

namespace HostBoundary

/-- The longest front of a text that has no quotation mark. -/
structure UnquotedFront (text front : List Char) : Prop where
  begins : front <+: text
  unquoted : '"' ∉ front
  longest : ∀ other, other <+: text → '"' ∉ other → other.length ≤ front.length

/-- A text has only one longest front. -/
theorem UnquotedFront.unique {text front front' : List Char} (first : UnquotedFront text front)
    (second : UnquotedFront text front') : front = front' := by
  have same : front.length = front'.length := Nat.le_antisymm
    (second.longest front first.begins first.unquoted)
    (first.longest front' second.begins second.unquoted)
  exact (List.prefix_of_prefix_length_le first.begins second.begins same.le).eq_of_length same

theorem unquotedFront_takeWhile (text : List Char) :
    UnquotedFront text (text.takeWhile (· != '"')) where
  begins := List.takeWhile_prefix _
  unquoted := by
    intro mem
    have unquoted := List.all_eq_true.mp (List.all_takeWhile (p := (· != '"')) (l := text)) _ mem
    simp at unquoted
  longest := by
    rintro other ⟨rest, rfl⟩ unquoted
    have whole : ∀ c ∈ other, (c != '"') = true := by
      intro c mem
      rw [bne_iff_ne]
      rintro rfl
      exact unquoted mem
    rw [List.takeWhile_append_of_pos whole, List.length_append]
    exact Nat.le_add_right _ _

namespace Flat

/-! ## What is shown of a value -/

/-- A value is shown up to the first quotation mark of its escaped form. -/
theorem unquotedFront_shown (value : String) :
    UnquotedFront (escape value).toList (shown value) := by
  rw [escape, String.toList_ofList]
  exact unquotedFront_takeWhile _

/-- An escape is a backslash and one more character. -/
theorem escapeChar_of_mem {c : Char} (escaped : c ∈ escapedChars) :
    ∃ e, escapeChar c = ['\\', e] := by
  simp only [escapedChars, List.mem_cons, List.not_mem_nil, or_false] at escaped
  rcases escaped with rfl | rfl | rfl | rfl | rfl <;> exact ⟨_, rfl⟩

/-- Only a quotation mark is written with one. -/
theorem quote_mem_escapeChars {s : List Char} (mem : '"' ∈ escapeChars s) : '"' ∈ s := by
  obtain ⟨c, here, written⟩ := List.mem_flatMap.mp mem
  by_cases escaped : c ∈ escapedChars
  · have only : escapedChars.all fun c => c = '"' || !(escapeChar c).contains '"' := by decide
    have quote := List.all_eq_true.mp only c escaped
    simp only [List.contains_iff_mem.mpr written, Bool.not_true, Bool.or_false,
      decide_eq_true_eq] at quote
    exact quote ▸ here
  · rw [escapeChar_of_notMem escaped, List.mem_singleton] at written
    exact written ▸ here

/-- An escaped text is longer by one for each character that is escaped. -/
theorem length_escapeChars (s : List Char) :
    (escapeChars s).length = s.length + s.countP (· ∈ escapedChars) := by
  induction s with
  | nil => rfl
  | cons c s ih =>
    rw [escapeChars_cons, List.length_append, ih, List.length_cons]
    by_cases escaped : c ∈ escapedChars
    · obtain ⟨e, pair⟩ := escapeChar_of_mem escaped
      rw [pair, List.countP_cons, if_pos (decide_eq_true escaped), List.length_cons,
        List.length_singleton]
      omega
    · rw [escapeChar_of_notMem escaped, List.countP_cons, if_neg (by simpa using escaped),
        List.length_singleton]
      omega

/-- **A value is shown as it is exactly when it needs no escape.** -/
theorem ofList_shown_eq_iff (value : String) : String.ofList (shown value) = value ↔ Plain value := by
  constructor
  · intro same
    have chars : shown value = value.toList := by
      rw [← String.toList_ofList (l := shown value), same]
    -- without a quotation mark everything is shown, and every escape would make it longer
    have noQuote : '"' ∉ value.toList := chars ▸ (unquotedFront_shown value).unquoted
    have all : ∀ c ∈ escapeChars value.toList, (c != '"') = true := by
      intro c mem
      rw [bne_iff_ne]
      rintro rfl
      exact noQuote (quote_mem_escapeChars mem)
    have whole : escapeChars value.toList = value.toList :=
      (List.takeWhile_eq_self_iff.mpr all).symm.trans chars
    have length := length_escapeChars value.toList
    rw [whole] at length
    have none : value.toList.countP (· ∈ escapedChars) = 0 := by omega
    intro c mem escaped
    exact List.countP_eq_zero.mp none c mem (decide_eq_true escaped)
  · intro plain
    rw [shown_of_plain plain, String.ofList_toList]

/-- Something is shown of every value but the empty one. -/
theorem shown_ne_nil {value : String} (nonempty : value ≠ "") : shown value ≠ [] := by
  rw [shown]
  cases chars : value.toList with
  | nil => exact absurd (String.toList_eq_nil_iff.mp chars) nonempty
  | cons c s =>
    rw [escapeChars_cons]
    by_cases escaped : c ∈ escapedChars
    · obtain ⟨e, pair⟩ := escapeChar_of_mem escaped
      have backslash : ('\\' != '"') = true := by decide
      rw [pair, List.cons_append, List.takeWhile_cons_of_pos (p := (· != '"')) backslash]
      exact List.cons_ne_nil _ _
    · have noQuote : (c != '"') = true := by
        rw [bne_iff_ne]
        rintro rfl
        exact escaped (by decide)
      rw [escapeChar_of_notMem escaped, List.singleton_append,
        List.takeWhile_cons_of_pos (p := (· != '"')) noQuote]
      exact List.cons_ne_nil _ _

/-! ## No injection -/

/-- **No value can pretend to be a field.**  Whatever the values of a flat object
are, a scan for a key shows the first value under that key, up to the first
quotation mark of its escaped form; and nothing when no pair has the key. -/
theorem field_text_of_plain_keys {key : String} (plainKey : Plain key) (notColon : key ≠ ":")
    (notComma : key ≠ ",") {pairs : List (String × String)}
    (plainKeys : ∀ pair ∈ pairs, Plain pair.1) :
    (∀ before value after, pairs = before ++ (key, value) :: after →
      (∀ pair ∈ before, pair.1 ≠ key) →
      UnquotedFront (escape value).toList (Scan.field (text pairs) key).toList) ∧
    ((∀ pair ∈ pairs, pair.1 ≠ key) → Scan.field (text pairs) key = "") := by
  have found := field_text (plainKey.lookup notColon notComma) plainKeys
  constructor
  · rintro before value after rfl others
    have first : (before ++ (key, value) :: after).find? (·.1 == key) = some (key, value) := by
      rw [List.find?_eq_some_iff_append]
      refine ⟨beq_self_eq_true key, before, after, rfl, ?_⟩
      intro pair mem
      simpa using others pair mem
    rw [found, first, String.toList_ofList]
    exact unquotedFront_shown value
  · intro others
    have none : pairs.find? (·.1 == key) = none := by
      rw [List.find?_eq_none]
      intro pair mem
      simpa using others pair mem
    rw [found, none]
    rfl

/-- Pairs whose values hold a second recipient, a key of their own and both ends
of an object. -/
def hostilePairs : List (String × String) :=
  [("memo", "\",\"to\":\"mallory"), ("note", "\"to\":"), ("to", "ali\"ce\x7d\x7b"), ("to", "bob")]

/-- The recipient is found in spite of them, and cut at its quotation mark. -/
theorem field_text_hostile :
    (Plain "to" ∧ "to" ≠ ":" ∧ "to" ≠ "," ∧ ∀ pair ∈ hostilePairs, Plain pair.1) ∧
    Scan.field (text hostilePairs) "to" = "ali\\" := by
  have plainKey : Plain "to" := by decide
  have plainKeys : ∀ pair ∈ hostilePairs, Plain pair.1 := by decide
  have notColon : "to" ≠ ":" := by decide
  have notComma : "to" ≠ "," := by decide
  obtain ⟨first, -⟩ := field_text_of_plain_keys plainKey notColon notComma plainKeys
  refine ⟨⟨plainKey, notColon, notComma, plainKeys⟩, ?_⟩
  have front := first [("memo", "\",\"to\":\"mallory"), ("note", "\"to\":")] "ali\"ce\x7d\x7b"
    [("to", "bob")] rfl (by decide)
  have cut := front.unique (unquotedFront_shown _)
  rw [← String.ofList_toList (s := Scan.field (text hostilePairs) "to"), cut]
  decide

end Flat

/-! ## Transfer requests -/

namespace TransferRequest

/-- A hexadecimal text needs no escape. -/
theorem plain_hex (bytes : Bytes) : Flat.Plain (Hex.encode bytes) := by
  have letters : Flat.Plain (String.ofList Hex.alphabet) := by decide
  intro c mem
  apply letters
  rw [String.toList_ofList]
  exact Hex.mem_alphabet_of_mem_encode mem

/-- A field of a request shows its first value. -/
theorem field_paramsText (request : TransferRequest) {key : String}
    (known : key ∈ ["to", "amount", "token_id"]) :
    Scan.field request.paramsText key = String.ofList
      (((request.pairs.find? (·.1 == key)).map fun pair => Flat.shown pair.2).getD []) := by
  have lookup : ∀ key ∈ ["to", "amount", "token_id"], Flat.Plain key ∧ key ≠ ":" ∧ key ≠ "," := by
    decide
  obtain ⟨plain, notColon, notComma⟩ := lookup key known
  apply Flat.field_text (plain.lookup notColon notComma)
  intro pair mem
  have key : pair.1 ∈ ["to", "amount", "token_id"] := by
    rw [pairs, List.mem_append] at mem
    rcases mem with fixed | token
    · have keys : pair.1 ∈ ["to", "amount"] := List.mem_map_of_mem (f := Prod.fst) fixed
      exact List.mem_append_left ["token_id"] keys
    · rw [Option.mem_toList, Option.map_eq_some_iff] at token
      obtain ⟨id, -, rfl⟩ := token
      simp
  exact (lookup _ key).1

/-- A value that needs no escape comes back as it was. -/
theorem field_of_plain (request : TransferRequest) {key value : String}
    (known : key ∈ ["to", "amount", "token_id"])
    (first : request.pairs.find? (·.1 == key) = some (key, value)) (plain : Flat.Plain value) :
    Scan.field request.paramsText key = value := by
  rw [field_paramsText request known, first, Option.map_some, Option.getD_some,
    (Flat.ofList_shown_eq_iff value).mpr plain]

theorem recipient?_paramsText (request : TransferRequest) :
    recipient? request.paramsText = some request.recipient := by
  have plain : Flat.Plain request.recipient.toHex := plain_hex _
  have shown : Scan.field request.paramsText "to" = request.recipient.toHex :=
    field_of_plain request (by decide) rfl plain
  have read : decodeHex request.recipient.toHex = .ok request.recipient.toBytes :=
    decodeHex_encode _
  unfold recipient?
  simp only [shown, read]
  exact FixedBytes.ofBytes?_toBytes _

theorem amount_paramsText (request : TransferRequest) :
    Scan.amount request.paramsText "amount" = request.amount := by
  have plain : Flat.Plain (decimal request.amount) := Flat.plain_decimal _
  rw [Scan.amount, field_of_plain request (by decide) rfl plain, Scan.leadingAmount_decimal]

/-- What the parameters give back of a token id. -/
theorem tokenId_paramsText (request : TransferRequest) :
    Scan.field request.paramsText "token_id"
      = ((request.tokenId.map fun id => String.ofList (Flat.shown id)).getD "") := by
  rw [field_paramsText request (by decide)]
  cases token : request.tokenId with
  | none =>
    have absent : request.pairs.find? (·.1 == "token_id") = none := by
      rw [pairs, token]
      rfl
    rw [absent]
    rfl
  | some id =>
    have third : request.pairs.find? (·.1 == "token_id") = some ("token_id", id) := by
      rw [pairs, token]
      rfl
    rw [third]
    rfl

/-- What the parameters of a request make: the request, with what is shown of its
token id. -/
theorem ofParams?_eq (request : TransferRequest) :
    ofParams? request.paramsText = some { request with
      tokenId := (request.tokenId.filter (· ≠ "")).map fun id => String.ofList (Flat.shown id) } := by
  have token : (if Scan.field request.paramsText "token_id" = "" then none
        else some (Scan.field request.paramsText "token_id"))
      = (request.tokenId.filter (· ≠ "")).map fun id => String.ofList (Flat.shown id) := by
    rw [tokenId_paramsText]
    cases request.tokenId with
    | none => rfl
    | some id =>
      rw [Option.map_some, Option.getD_some]
      by_cases empty : id = ""
      · subst empty
        rfl
      · have nonempty : String.ofList (Flat.shown id) ≠ "" := by
          intro same
          exact Flat.shown_ne_nil empty (String.ofList_eq_empty_iff.mp same)
        rw [if_neg nonempty, Option.filter_some_pos (by simpa using empty), Option.map_some]
  simp only [ofParams?, recipient?_paramsText, amount_paramsText, Option.map_some, token]

/-- **The parameters of a request make the request again**, but for its token id.
An empty token id comes back as none, any other as the front of its escaped form
up to a quotation mark; so the request is the same exactly when it has no token
id or one that is not empty and needs no escape. -/
theorem ofParams?_paramsText (request : TransferRequest) :
    ∃ read, ofParams? request.paramsText = some read ∧
      read.recipient = request.recipient ∧ read.amount = request.amount ∧
      (request.tokenId = none ∨ request.tokenId = some "" → read.tokenId = none) ∧
      (∀ id, request.tokenId = some id → id ≠ "" → ∃ front, read.tokenId = some front ∧
        UnquotedFront (Flat.escape id).toList front.toList) ∧
      (read = request ↔
        request.tokenId = none ∨ ∃ id, request.tokenId = some id ∧ id ≠ "" ∧ Flat.Plain id) := by
  refine ⟨_, ofParams?_eq request, rfl, rfl, ?_, ?_, ?_⟩
  · rintro (none | empty)
    · rw [none]
      rfl
    · rw [empty]
      rfl
  · intro id token nonempty
    refine ⟨String.ofList (Flat.shown id), ?_, ?_⟩
    · rw [token, Option.filter_some_pos (by simpa using nonempty), Option.map_some]
    · rw [String.toList_ofList]
      exact Flat.unquotedFront_shown id
  · obtain ⟨recipient, amount, tokenId⟩ := request
    rw [TransferRequest.mk.injEq, eq_self, eq_self, true_and, true_and]
    cases tokenId with
    | none => exact iff_of_true rfl (.inl rfl)
    | some id =>
      by_cases empty : id = ""
      · subst empty
        refine iff_of_false nofun ?_
        rintro (⟨⟨⟩⟩ | ⟨_, ⟨⟩, nonempty, -⟩)
        exact nonempty rfl
      · rw [Option.filter_some_pos (by simpa using empty), Option.map_some, Option.some_inj,
          Flat.ofList_shown_eq_iff]
        constructor
        · intro plain
          exact .inr ⟨id, rfl, empty, plain⟩
        · rintro (⟨⟨⟩⟩ | ⟨_, ⟨⟩, -, plain⟩)
          exact plain

end TransferRequest

end HostBoundary
