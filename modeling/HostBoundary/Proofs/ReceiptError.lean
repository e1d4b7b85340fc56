import HostBoundary.Proofs.Exchange
import HostBoundary.Proofs.Operations
import HostBoundary.Proofs.Reading
import HostBoundary.Proofs.Search
import HostBoundary.Proofs.Spelling

/-!
# Which receipts are rejected

A receipt reports an error when the *first* quoted `error` of its text shows one
behind the first colon that follows.  That is the `error` member of the receipt
only as long as no quoted `error` stands before it: not as a key of a nested
object, not as a value, not at the end of a string.  Nor is the member found
when its key is spelled with an escape.

So the exact condition is one on the text (`Receipt.ErrorShown`), and this module
carries it through to the end: through the padding that a buffer leaves behind a
receipt, and through the whole exchange with the host.

## Main results

* `Receipt.rejected_iff_errorShown` — a receipt that is a JSON object is rejected
  exactly when its text shows an error, by every function that rejects receipts.
* `Receipt.errorShown_of_member` — it does so when the first quoted `error` is
  where a member with a set value is read.
-/

namespace HostBoundary

open Bytes Utf8

/-- The needle stands behind `front` and before `back`, and nowhere earlier. -/
def Bytes.FirstAt (needle front back hay : Bytes) : Prop :=
  hay = front ++ needle ++ back ∧ ∀ f b, hay = f ++ needle ++ b → front.length ≤ f.length

theorem Bytes.behind?_iff_firstAt {needle hay back : Bytes} (nonempty : needle ≠ []) :
    behind? needle hay = some back ↔ ∃ front, FirstAt needle front back hay :=
  behind?_eq_some_iff nonempty

namespace Receipt

variable {receipt padding blanks : Bytes}

/-! ## The condition -/

/-- The bytes begin neither with an `n` nor with an empty string. -/
def ShowsValue (bytes : Bytes) : Prop := bytes.head? ≠ some 110 ∧ ¬ [quote, quote] <+: bytes

/-- Behind the first colon behind the first quoted `error` of the text, and
behind spaces and tabs, something is shown that is neither `null` nor empty. -/
def ErrorShown (receipt : Bytes) : Prop :=
  ∃ front back gap value, FirstAt errorKey front back receipt ∧
    FirstAt [colon] gap value back ∧ ShowsValue (value.dropWhile Scan.isSpaceOrTab)

theorem isErrorValue_iff (bytes : Bytes) : isErrorValue bytes = true ↔ ShowsValue bytes := by
  cases bytes with
  | nil => exact iff_of_true rfl (by simp [ShowsValue])
  | cons b rest =>
    rw [isErrorValue]
    by_cases isNull : b = 110
    · rw [if_pos isNull, isNull]
      exact iff_of_false Bool.false_ne_true fun shown => shown.1 rfl
    · have head : (b :: rest).head? ≠ some 110 := fun same => isNull (Option.some.inj same)
      rw [if_neg isNull]
      by_cases isQuote : b = quote
      · subst isQuote
        rw [if_pos rfl]
        cases rest with
        | nil => exact iff_of_true rfl ⟨head, by decide⟩
        | cons c rest =>
          rw [List.head?_cons, bne_iff_ne, ne_eq, Option.some_inj]
          constructor
          · exact fun ne => ⟨head, fun ⟨t, whole⟩ => ne (List.cons.inj (List.cons.inj whole).2).1.symm⟩
          · rintro ⟨-, nonempty⟩ rfl
            exact nonempty ⟨rest, rfl⟩
      · rw [if_neg isQuote]
        exact iff_of_true rfl ⟨head, fun ⟨t, whole⟩ => isQuote (List.cons.inj whole).1.symm⟩

/-- **A receipt reports an error exactly when its text shows one.** -/
theorem reportsError_iff (receipt : Bytes) : reportsError receipt = true ↔ ErrorShown receipt := by
  have keyed : errorKey ≠ [] := by decide
  rw [reportsError_eq]
  constructor
  · intro reported
    cases key : behind? errorKey receipt with
    | none =>
      rw [key] at reported
      cases reported
    | some back =>
      obtain ⟨front, first⟩ := (behind?_iff_firstAt keyed).mp key
      rw [key, Option.bind_some, valueBehind?] at reported
      cases colons : behind? [colon] back with
      | none =>
        rw [colons] at reported
        cases reported
      | some value =>
        obtain ⟨gap, second⟩ := (behind?_iff_firstAt (List.cons_ne_nil _ _)).mp colons
        rw [colons] at reported
        exact ⟨front, back, gap, value, first, second, (isErrorValue_iff _).mp reported⟩
  · rintro ⟨front, back, gap, value, first, second, shown⟩
    have key := (behind?_iff_firstAt keyed).mpr ⟨front, first⟩
    have colons := (behind?_iff_firstAt (List.cons_ne_nil _ _)).mpr ⟨gap, second⟩
    rw [key, Option.bind_some, valueBehind?, colons]
    exact (isErrorValue_iff _).mpr shown

/-! ## Padding -/

/-- Padding behind a receipt does not move its end. -/
theorem jsonEnd_append_padding (raw : Bytes) (padded : ∀ b ∈ padding, isPadding b = true) :
    jsonEnd (raw ++ padding) = jsonEnd raw := by
  have behind : ∀ b ∈ padding.reverse, isPadding b = true :=
    fun b mem => padded b (List.mem_reverse.mp mem)
  rw [jsonEnd, List.reverse_append, List.dropWhile_append_of_pos behind, jsonEnd]

/-- A receipt ends inside the bytes that it was found in. -/
theorem jsonEnd_le (raw : Bytes) : jsonEnd raw ≤ raw.length := by
  have kept : (raw.reverse.dropWhile isPadding).length ≤ raw.length := by
    have sub := (List.dropWhile_sublist (l := raw.reverse) isPadding).length_le
    rwa [List.length_reverse] at sub
  rw [jsonEnd]
  split
  · next found =>
    rw [found, List.length_cons] at kept
    split
    · exact kept
    · exact Nat.zero_le _
  · exact Nat.zero_le _

/-- The zeros of an unused buffer are padding. -/
theorem isPadding_of_mem_zeros {unused : Nat} :
    ∀ b ∈ List.replicate unused (0 : UInt8), isPadding b = true := by
  intro b mem
  rw [List.eq_of_mem_replicate mem]
  rfl

/-- **Padding behind a receipt changes nothing**, whatever the receipt is. -/
theorem parse_append_padding (raw : Bytes) (padded : ∀ b ∈ padding, isPadding b = true) :
    parse (raw ++ padding) = parse raw := by
  simp only [parse]
  rw [jsonEnd_append_padding raw padded, List.take_append_of_le_length (jsonEnd_le raw)]

/-- Bytes that end at a brace are all receipt. -/
theorem jsonEnd_brace (front : Bytes) : jsonEnd (front ++ [closeBrace]) = front.length + 1 := by
  have brace : ¬ isPadding closeBrace = true := by decide
  rw [jsonEnd, List.reverse_append, List.reverse_singleton, List.singleton_append,
    List.dropWhile_cons_of_neg brace]
  simp

/-- Whether a value is an error does not depend on what stands behind its brace. -/
theorem isErrorValue_dropWhile (value blanks : Bytes) :
    isErrorValue ((value ++ closeBrace :: blanks).dropWhile Scan.isSpaceOrTab)
      = isErrorValue ((value ++ [closeBrace]).dropWhile Scan.isSpaceOrTab) := by
  induction value with
  | nil => rfl
  | cons b value ih =>
    rw [List.cons_append, List.cons_append, List.dropWhile_cons, List.dropWhile_cons]
    split
    · exact ih
    · cases value <;> rfl

/-- Blanks behind the last brace change nothing. -/
theorem reportsError_append_blanks (front : Bytes)
    (noQuote : quote ∉ blanks) (noColon : colon ∉ blanks) :
    reportsError (front ++ closeBrace :: blanks) = reportsError (front ++ [closeBrace]) := by
  have whole : front ++ closeBrace :: blanks = front ++ [closeBrace] ++ blanks := by simp
  have keyShape : errorKey = [34, 101, 114, 114, 111, 114] ++ [quote] := by decide
  rw [whole, reportsError_eq, reportsError_eq]
  cases key : behind? errorKey (front ++ [closeBrace]) with
  | none =>
    rw [keyShape] at key ⊢
    rw [behind?_append_of_none key noQuote]
  | some back =>
    rw [behind?_append_of_some (by decide) key, Option.bind_some, Option.bind_some, valueBehind?,
      valueBehind?]
    cases colons : behind? [colon] back with
    | none =>
      have still : behind? ([] ++ [colon]) (back ++ blanks) = none :=
        behind?_append_of_none colons noColon
      rw [List.nil_append] at still
      rw [still]
    | some value =>
      obtain ⟨before, first, -⟩ := (behind?_eq_some_iff (by decide)).mp key
      obtain ⟨gap, second, -⟩ := (behind?_eq_some_iff (List.cons_ne_nil _ _)).mp colons
      rw [behind?_append_of_some (List.cons_ne_nil _ _) colons]
      simp only [Option.map_some, Option.getD_some]
      -- the value is not empty, since the brace stands behind the colon
      rcases List.eq_nil_or_concat value with rfl | ⟨value, last, rfl⟩
      · rw [second, List.append_nil, ← List.append_assoc] at first
        exact absurd (List.append_inj' first rfl).2 (by decide)
      · rw [second, List.concat_eq_append, ← List.append_assoc, ← List.append_assoc] at first
        have brace : [closeBrace] = [last] := (List.append_inj' first rfl).2
        rw [List.concat_eq_append, ← brace, List.append_assoc]
        exact isErrorValue_dropWhile value blanks

/-- A text that ends at a brace is parsed by its error alone, whatever padding
stands behind it. -/
theorem parse_of_brace {json : String} {front : Bytes} (ends : encode json = front ++ [closeBrace])
    (padded : ∀ b ∈ padding, isPadding b = true) :
    parse (front ++ closeBrace :: padding)
      = if hasError json then .error (.host .executionFailed) else .ok ⟨json⟩ := by
  have whole : front ++ closeBrace :: padding = encode json ++ padding := by rw [ends]; simp
  have cut : (encode json).take (front.length + 1) = encode json :=
    List.take_of_length_le (by rw [ends]; simp)
  rw [whole, parse_append_padding _ padded]
  simp only [parse]
  rw [ends, jsonEnd_brace, if_neg (Nat.succ_ne_zero _), ← ends, cut, decode?_encode]

/-- The blanks behind a value are padding, and neither quotation marks nor colons. -/
theorem mem_spell_blanks {blanks : List Char} (blank : ∀ c ∈ blanks, Json.isBlank c = true)
    {b : UInt8} (mem : b ∈ spell blanks) : b ∈ [32, 9, 10, 13] := by
  obtain ⟨c, isBlank, here⟩ := List.mem_flatMap.mp mem
  have one := blank c isBlank
  simp only [Json.isBlank, Bool.or_eq_true, decide_eq_true_eq] at one
  rcases one with ((rfl | rfl) | rfl) | rfl <;>
    (rw [List.mem_singleton.mp here]; decide)

/-- **An object is parsed by its error alone**, up to the padding behind it. -/
theorem parse_padded {text : String} {members : List (String × Json)}
    (parsed : Json.parse? text = some (.object members))
    (padded : ∀ b ∈ padding, isPadding b = true) :
    ∃ json, parse (encode text ++ padding)
      = if hasError text then .error (.host .executionFailed) else .ok ⟨json⟩ := by
  obtain ⟨body, blanks, split, blank⟩ := Json.ends_of_parse?_object parsed
  have bytes : encode text = spell body ++ closeBrace :: spell blanks := by
    rw [encode_eq_spell, split, spell_append]
    rfl
  have allPadded : ∀ b ∈ spell blanks ++ padding, isPadding b = true := by
    have blankPadded : ([32, 9, 10, 13] : Bytes).all isPadding := by decide
    intro b mem
    rcases List.mem_append.mp mem with here | behind
    · exact List.all_eq_true.mp blankPadded b (mem_spell_blanks blank here)
    · exact padded b behind
  have noQuote : quote ∉ spell blanks := fun mem =>
    absurd (mem_spell_blanks blank mem) (by decide)
  have noColon : colon ∉ spell blanks := fun mem =>
    absurd (mem_spell_blanks blank mem) (by decide)
  have ends : encode (String.ofList (body ++ ['}'])) = spell body ++ [closeBrace] := by
    rw [encode_ofList, spell_append]
    rfl
  have same : hasError text = hasError (String.ofList (body ++ ['}'])) := by
    rw [hasError, hasError, bytes, ends, reportsError_append_blanks _ noQuote noColon]
  refine ⟨String.ofList (body ++ ['}']), ?_⟩
  rw [same, bytes, List.append_assoc, List.cons_append]
  exact parse_of_brace ends allPadded

theorem parse_eq_error_iff {text : String} {members : List (String × Json)}
    (parsed : Json.parse? text = some (.object members))
    (padded : ∀ b ∈ padding, isPadding b = true) :
    parse (encode text ++ padding) = .error (.host .executionFailed) ↔ hasError text = true := by
  obtain ⟨json, outcome⟩ := parse_padded parsed padded
  rw [outcome]
  split
  · next shown => exact iff_of_true rfl shown
  · next hidden =>
    refine iff_of_false ?_ hidden
    rintro ⟨⟩

/-! ## Where the member itself is found -/

/-- The quoted key, character by character. -/
def errorChars : List Char := ['"', 'e', 'r', 'r', 'o', 'r', '"']

theorem stringBody?_error (s : List Char) :
    Json.stringBody? none [] (errorChars.tail ++ s) = some ("error", s) := by
  simp only [errorChars, List.tail_cons, List.cons_append, List.nil_append]
  iterate 5 rw [Json.stringBody?_plain (by decide) (by decide) (by decide)]
  rw [Json.stringBody?_quote]
  rfl

/-- A text that begins with neither a space nor a tab has none to skip. -/
theorem dropWhile_spell_cons {c : Char} (s : List Char) (notSpace : c ≠ ' ')
    (notTab : c ≠ '\t') :
    (spell (c :: s)).dropWhile Scan.isSpaceOrTab = spell (c :: s) := by
  cases bytes : spell (c :: s) with
  | nil => rfl
  | cons b t =>
    have visible : ¬ Scan.isSpaceOrTab b = true := by
      intro hidden
      rw [Scan.isSpaceOrTab, Bool.or_eq_true, beq_iff_eq, beq_iff_eq] at hidden
      rcases hidden with rfl | rfl
      · have begins : spell (c :: s) = spell [' '] ++ t := bytes
        obtain ⟨_, same, -⟩ := eq_append_of_spell (by decide) begins
        exact notSpace (List.head_eq_of_cons_eq same)
      · have begins : spell (c :: s) = spell ['\t'] ++ t := bytes
        obtain ⟨_, same, -⟩ := eq_append_of_spell (by decide) begins
        exact notTab (List.head_eq_of_cons_eq same)
    exact List.dropWhile_cons_of_neg visible

/-- A value that is set shows itself, behind any blanks. -/
theorem showsValue_of_value? {s rest : List Char} {fuel : Nat} {value : Json}
    (reads : Json.value? fuel (Json.skipBlanks s) = some (value, rest))
    (notNull : value ≠ .null) (nonempty : value ≠ .string "") :
    ShowsValue ((spell s).dropWhile Scan.isSpaceOrTab) := by
  induction s with
  | nil => simp [ShowsValue]
  | cons c s ih =>
    by_cases isSpace : c = ' '
    · subst isSpace
      exact ih reads
    · by_cases isTab : c = '\t'
      · subst isTab
        exact ih reads
      · -- a line feed or a carriage return is what is shown, and it counts as set
        rw [dropWhile_spell_cons s isSpace isTab]
        constructor
        · intro head
          obtain ⟨t, bytes⟩ := List.head?_eq_some_iff.mp head
          have begins : spell (c :: s) = spell ['n'] ++ t := bytes
          obtain ⟨_, same, -⟩ := eq_append_of_spell (by decide) begins
          rw [same] at reads
          exact notNull (Json.eq_null_of_value? reads)
        · rintro ⟨t, bytes⟩
          have begins : spell (c :: s) = spell ['"', '"'] ++ t := bytes.symm
          obtain ⟨_, same, -⟩ := eq_append_of_spell (by decide) begins
          rw [same] at reads
          exact nonempty (Json.eq_empty_of_value? reads)

/-- **A member is not missed where it comes first.**  When the first quoted
`error` of a text is where the key of a member with a set value is read, the
text shows an error. -/
theorem errorShown_of_member {text : String} {before after rest : List Char} {fuel : Nat}
    {value : Json} {members : List (String × Json)} {back : Bytes}
    (split : text.toList = before ++ after)
    (first : FirstAt errorKey (spell before) back (encode text))
    (reads : Json.members? fuel after = some (("error", value) :: members, rest))
    (notNull : value ≠ .null) (nonempty : value ≠ .string "") : ErrorShown (encode text) := by
  have bytes : spell after = spell errorChars ++ back := by
    have whole := first.1
    rw [encode_eq_spell, split, spell_append, List.append_assoc] at whole
    exact List.append_cancel_left whole
  obtain ⟨t, rfl, rfl⟩ := eq_append_of_spell (by decide) bytes
  obtain ⟨behindKey, behindColon, behindValue, less, readsKey, colons, readsValue⟩ :=
    Json.members?_eq_some reads
  have same := (stringBody?_error t).symm.trans readsKey
  cases same
  have blank : ∀ c ∈ t.takeWhile Json.isBlank, Json.isBlank c = true :=
    List.all_eq_true.mp List.all_takeWhile
  have noColon : colon ∉ spell (t.takeWhile Json.isBlank) := fun mem =>
    absurd (mem_spell_blanks blank mem) (by decide)
  have behind : behind? [colon] (spell t) = some (spell behindColon) := by
    rw [← List.takeWhile_append_dropWhile (p := Json.isBlank) (l := t), spell_append,
      behind?_append_of_notMem noColon, ← Json.skipBlanks, colons]
    exact behind?_of_begins (List.cons_ne_nil _ _) _
  obtain ⟨gap, second⟩ := (behind?_iff_firstAt (List.cons_ne_nil _ _)).mp behind
  exact ⟨_, _, gap, _, first, second, showsValue_of_value? readsValue notNull nonempty⟩

/-! ## The exchange with the host -/

/-- The region for the receipt holds an object that fits it, with padding behind. -/
theorem receiptIn_eq {setup : Setup} (built : setup.buildStatus = 0) {json : Bytes}
    (padded : ∀ b ∈ padding, isPadding b = true) (answer : setup.receipt = json ++ padding)
    {capacity : UInt32} (fits : json.length ≤ capacity.toNat) :
    ∃ behind, (∀ b ∈ behind, isPadding b = true) ∧ setup.receiptIn capacity = json ++ behind := by
  refine ⟨padding.take (capacity.toNat - json.length) ++ List.replicate
    (capacity.toNat - (setup.receipt.take capacity.toNat).length) 0, ?_, ?_⟩
  · intro b mem
    rcases List.mem_append.mp mem with given | zero
    · exact padded b (List.mem_of_mem_take given)
    · exact isPadding_of_mem_zeros b zero
  · simp only [Setup.receiptIn, if_pos built]
    rw [← List.append_assoc, answer, List.take_append, List.take_of_length_le fits]

/-- A build comes to a receipt when the host built it and the receipt hides its error. -/
theorem verdict_eq_ok_iff {setup : Setup} {text : String} {members : List (String × Json)}
    (parsed : Json.parse? text = some (.object members))
    (padded : ∀ b ∈ padding, isPadding b = true)
    (answer : setup.receipt = encode text ++ padding) (fits : (encode text).length ≤ 4096) :
    (∃ receipt, setup.verdict = .ok receipt) ↔
      setup.buildStatus = 0 ∧ ¬ ErrorShown (encode text) := by
  rw [Setup.verdict, ← reportsError_iff]
  by_cases built : setup.buildStatus = 0
  · have room : (encode text).length ≤ Guest.receiptCapacity.toNat := fits
    obtain ⟨behind, behindPadded, region⟩ := receiptIn_eq built padded answer room
    obtain ⟨json, outcome⟩ := parse_padded parsed behindPadded
    rw [BoundaryError.ofStatus_eq_ok_iff.mpr built, region, outcome, hasError]
    by_cases shown : reportsError (encode text) = true
    · rw [if_pos shown]
      refine iff_of_false ?_ fun hidden => hidden.2 shown
      rintro ⟨_, ⟨⟩⟩
    · rw [if_neg shown]
      exact iff_of_true ⟨_, rfl⟩ ⟨built, shown⟩
  · refine iff_of_false ?_ fun good => built good.1
    rintro ⟨receipt, usable⟩
    cases status : BoundaryError.ofStatus setup.buildStatus with
    | ok _ => exact built (BoundaryError.ofStatus_eq_ok_iff.mp status)
    | error error =>
      rw [status] at usable
      cases usable

/-- **A receipt that is an object is rejected exactly when its text shows an
error**: by the check itself, by the parser of receipts whatever padding stands
behind it, and by an exchange with any host that writes it, where it fits the
buffer.  It is rejected wherever the first quoted `error` of its text is where a
member with a set value is read. -/
theorem rejected_iff_errorShown {text : String} {members : List (String × Json)}
    (parsed : Json.parse? text = some (.object members)) :
    (hasError text = true ↔ ErrorShown (encode text)) ∧
    (∀ padding : Bytes, (∀ b ∈ padding, isPadding b = true) →
      (parse (encode text ++ padding) = .error (.host .executionFailed) ↔
        ErrorShown (encode text))) ∧
    (∀ (world : World) (builder : Builder) (padding : Bytes),
      (∀ b ∈ padding, isPadding b = true) →
      world.host.setup.receipt = encode text ++ padding → (encode text).length ≤ 4096 →
      ∃ result spent after, Guest.finalize builder world = .ok (result, spent) after ∧
        (result.success = true ↔ builder.finalized = false ∧
          world.host.setup.buildStatus = 0 ∧
          after.host.records.drafts = world.host.records.drafts ++ [builder.draft.text] ∧
          ¬ ErrorShown (encode text))) ∧
    (∀ (before after rest : List Char) (back : Bytes) (fuel : Nat) (value : Json)
      (more : List (String × Json)), text.toList = before ++ after →
      FirstAt errorKey (spell before) back (encode text) →
      Json.members? fuel after = some (("error", value) :: more, rest) →
      value ≠ .null → value ≠ .string "" → ErrorShown (encode text)) := by
  refine ⟨reportsError_iff _, ?_, ?_, ?_⟩
  · intro padding padded
    rw [parse_eq_error_iff parsed padded]
    exact reportsError_iff _
  · intro world builder padding padded answer fits
    have usable := verdict_eq_ok_iff parsed padded answer fits
    by_cases spent : builder.finalized = true
    · refine ⟨.failed .invalidState, builder, world, ?_, ?_⟩
      · rw [Guest.finalize, if_pos spent]
        rfl
      · rw [spent]
        exact iff_of_false Bool.false_ne_true fun good => Bool.noConfusion good.1
    · obtain ⟨result, after, answers, told⟩ :=
        Guest.finalize_cases world (Bool.eq_false_iff.mpr spent)
      refine ⟨result, _, after, answers, ?_⟩
      rcases told with ⟨rfl, records⟩ | ⟨-, rfl, records⟩
      · refine iff_of_false Bool.false_ne_true ?_
        rintro ⟨-, -, drafts, -⟩
        rw [records] at drafts
        simp at drafts
      · rw [TransactionResult.success_ofOutcome, usable, records]
        simp [spent]
  · intro before after rest back fuel value more split first reads notNull nonempty
    exact errorShown_of_member split first reads notNull nonempty

/-- A receipt whose error stands behind the `null` of a nested object. -/
def hidingReceipt : String := "\x7b\"data\":\x7b\"error\":null\x7d,\"error\":\"rejected\"\x7d"

/-- The error of that receipt is a member with a set value, and it is missed. -/
theorem rejected_iff_errorShown_hiding :
    Json.parse? hidingReceipt = some (.object
      [("data", .object [("error", .null)]), ("error", .string "rejected")]) ∧
    hasError hidingReceipt = false ∧ ¬ ErrorShown (encode hidingReceipt) ∧
    parse (encode hidingReceipt) ≠ .error (.host .executionFailed) := by
  have parsed : Json.parse? hidingReceipt = some (.object
      [("data", .object [("error", .null)]), ("error", .string "rejected")]) := by
    cbv
  have missed : hasError hidingReceipt = false := by decide
  obtain ⟨reported, unusable, -⟩ := rejected_iff_errorShown parsed
  have hidden : ¬ ErrorShown (encode hidingReceipt) := by
    rw [← reported, missed]
    exact Bool.false_ne_true
  refine ⟨parsed, missed, hidden, fun refused => hidden ((unusable [] (List.forall_mem_nil _)).mp ?_)⟩
  rw [List.append_nil]
  exact refused

end Receipt

end HostBoundary
