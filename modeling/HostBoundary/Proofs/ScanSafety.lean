import HostBoundary.Proofs.TextCuts

/-!
# Scans stay inside the text

The definitions of the scans do not show where a scan could go wrong, since
`take`, `drop` and the subtraction of natural numbers are total.  So each scan is
written once more in the order in which it moves its positions, with every cut
and every count downwards checked (`Scan.Guarded`).  A failed check is a fault and
ends the scan.

No scan has a fault, on any text and for any key, and what the checked scans find
is what the scans find.  The keys do not matter: a pattern ends with a quotation
mark, a colon or a brace whatever the key is (`after_mem`).

## Main results

* `Scan.Guarded.closing_of_open` — the depth of an object is never decreased at
  zero.
* `Scan.Guarded.scans_are_safe` — no scan of any text has a fault, and every text
  that is found is a part of it.
-/

namespace HostBoundary

open Bytes Utf8

namespace Scan

namespace Guarded

/-! ## Scans with checks -/

/-- The position behind the first quoted key and suffix. -/
def after (text key suffix : String) : Except Fault (Option Nat) := do
  let needle := encode ("\"" ++ key ++ "\"" ++ suffix)
  let found ← find text needle 0
  return found.map (· + needle.length)

/-- The value of a field that stands behind spaces. -/
def looseField (text key : String) : Except Fault String := do
  match ← after text key ":" with
  | none => return ""
  | some behind =>
    let first := skipWhile text (· == space) behind
    let quoted := (encode text)[first]? = some quote
    let start := if quoted then first + 1 else first
    let stop := if quoted then skipWhile text (· != quote) start else skipWhile text isDigit start
    if start < stop then slice text start stop else return ""

/-- The value of a field. -/
def field (text key : String) : Except Fault String := do
  match ← after text key ":\"" with
  | none => looseField text key
  | some start =>
    let stop := skipWhile text (· != quote) start
    if start < stop then slice text start stop else looseField text key

/-- The position behind the brace that closes the last open one. -/
def closing : (depth here : Nat) → Bytes → Except Fault (Option Nat)
  | _, _, [] => return none
  | depth, here, b :: rest =>
    if b = openBrace then closing (depth + 1) (here + 1) rest
    else if b = closeBrace then do
      let depth ← decrease depth
      if depth = 0 then return some (here + 1) else closing depth (here + 1) rest
    else closing depth (here + 1) rest

/-- The object behind a key. -/
def object (text key : String) : Except Fault String := do
  match ← after text key ":\x7b" with
  | none => return ""
  | some behind =>
    let start ← decrease behind
    match ← closing 0 start ((encode text).drop start) with
    | some stop => slice text start stop
    | none => slice text start (encode text).length

/-- The position of the first byte of a value. -/
def valueStart (text key : String) : Except Fault (Option Nat) := do
  match ← after text key "" with
  | none => return none
  | some behind =>
    match ← find text [colon] behind with
    | none => return none
    | some colonAt => return some (skipWhile text isSpaceOrTab (colonAt + 1))

/-- The next text in quotation marks after the colon of a key. -/
def string? (text key : String) : Except Fault (Option String) := do
  match ← valueStart text key with
  | none => return none
  | some start =>
    match ← find text [quote] start with
    | none => return none
    | some opening =>
      match ← find text [quote] (opening + 1) with
      | none => return none
      | some closing => return some (← slice text (opening + 1) closing)

/-- The number behind a key. -/
def number? (text key : String) : Except Fault (Option UInt64) := do
  match ← valueStart text key with
  | none => return none
  | some start =>
    let digits ← slice text start (skipWhile text isDigit start)
    return if digits = "" then none else some (leadingAmount digits)

/-- The truth value behind a key. -/
def boolean? (text key : String) : Except Fault (Option Bool) := do
  match ← valueStart text key with
  | none => return none
  | some start =>
    let rest ← slice text start (encode text).length
    return if (encode "true").isPrefixOf (encode rest) then some true
      else if (encode "false").isPrefixOf (encode rest) then some false
      else none

/-- Whether the first `error` key carries an error. -/
def hasError (text : String) : Except Fault Bool := do
  match findFrom (encode text) (encode "\"error\"") 0 with
  | none => return false
  | some key =>
    let rest ← slice text key (encode text).length
    match findFrom (encode rest) [colon] 0 with
    | none => return false
    | some colonAt =>
      let start := skipWhile text isSpaceOrTab (key + colonAt + 1)
      return Receipt.isErrorValue ((encode text).drop start)

variable {text key : String} {start stop p : Nat}

/-- What comes after a computation without a fault. -/
theorem ok_bind {α β : Type} (a : α) (next : α → Except Fault β) :
    (Except.ok a >>= next) = next a := rfl

/-- A computation without a fault consists of ones without a fault. -/
theorem eq_ok_of_bind {α β : Type} {act : Except Fault α} {next : α → Except Fault β} {b : β}
    (ran : (act >>= next) = .ok b) : ∃ a, act = .ok a ∧ next a = .ok b := by
  cases act with
  | ok a => exact ⟨a, rfl, ran⟩
  | error fault => cases ran

/-! ## Patterns -/

theorem after_eq (text key suffix : String) :
    after text key suffix = .ok (after? (encode text) (encode key) (encode suffix)) := by
  have needle : encode ("\"" ++ key ++ "\"" ++ suffix) = pattern (encode key) (encode suffix) := by
    have mark : encode "\"" = [quote] := rfl
    rw [encode_append, encode_append, encode_append, mark, pattern]
    simp
  rw [after, needle, find_eq (zero_mem_boundaries _)]
  rfl

/-- The last byte of a pattern that is found stands in front of the position. -/
theorem drop_of_after {key suffix init : Bytes} {last : UInt8}
    (ends : quote :: suffix = init ++ [last])
    (found : after? (encode text) key suffix = some p) :
    ∃ q back, p = q + 1 ∧ (encode text).drop q = last :: back := by
  obtain ⟨q, occurs, rfl⟩ := Option.map_eq_some_iff.mp found
  obtain ⟨front, back, whole, rfl, -⟩ := split_of_findFrom (pattern_ne_nil key suffix) occurs
  have concat : pattern key suffix = (quote :: (key ++ init)) ++ [last] := by
    rw [pattern, ends]
    simp
  rw [List.drop_zero, concat, ← List.append_assoc, List.append_assoc] at whole
  refine ⟨(front ++ quote :: (key ++ init)).length, back, ?_, ?_⟩
  · rw [concat, List.length_append, List.length_append, List.length_singleton]
    omega
  · rw [whole, List.drop_left]
    rfl

/-- **A pattern ends between characters** whatever the key is. -/
theorem after_mem {key suffix : Bytes} (ascii : suffix.all (· < 128))
    (found : after? (encode text) key suffix = some p) : p ∈ boundaries text.toList := by
  rcases List.eq_nil_or_concat (quote :: suffix) with empty | ⟨init, last, concat⟩
  · cases empty
  · have small : last < 128 := by
      have mem : last ∈ quote :: suffix := by simp [concat]
      rcases List.mem_cons.mp mem with rfl | mem
      · decide
      · exact of_decide_eq_true (List.all_eq_true.mp ascii last mem)
    rw [List.concat_eq_append] at concat
    obtain ⟨q, back, rfl, here⟩ := drop_of_after concat found
    exact (boundary_of_drop here small).2

/-! ## Fields -/

/-- The bytes that pass are cut out, if there are any. -/
theorem cut_skipWhile (mem : start ∈ boundaries text.toList) {passes : UInt8 → Bool}
    (stops : skipWhile text passes start ∈ boundaries text.toList) :
    (if start < skipWhile text passes start then slice text start (skipWhile text passes start)
      else .ok "") = .ok (decodeOrEmpty (((encode text).drop start).takeWhile passes)) := by
  split
  · exact slice_skipWhile mem stops
  · next stays =>
    have none : (((encode text).drop start).takeWhile passes).length = 0 := by
      rw [skipWhile] at stays
      omega
    rw [List.length_eq_zero_iff.mp none]
    rfl

theorem isSpace_lt (b : UInt8) (blank : (b == space) = true) : b < 128 := by
  rw [eq_of_beq blank]
  decide

theorem isDigit_lt (b : UInt8) (digit : isDigit b = true) : b < 128 := by
  rw [isDigit, Bool.and_eq_true, decide_eq_true_iff, decide_eq_true_iff] at digit
  exact UInt8.lt_of_le_of_lt digit.2 (by decide)

theorem isSpaceOrTab_lt (b : UInt8) (blank : isSpaceOrTab b = true) : b < 128 := by
  rw [isSpaceOrTab, Bool.or_eq_true, beq_iff_eq, beq_iff_eq] at blank
  rcases blank with rfl | rfl <;> decide

theorem looseField_eq (text key : String) :
    looseField text key = .ok (decodeOrEmpty (looseSlice (encode text) (encode key))) := by
  have colonText : encode ":" = [colon] := rfl
  rw [looseField, after_eq, colonText, looseSlice]
  cases found : after? (encode text) (encode key) [colon] with
  | none => rfl
  | some behind =>
    have mem := skipWhile_mem_of_ascii (after_mem (by decide) found) isSpace_lt
    have rest := drop_skipWhile text (· == space) behind
    have digits := cut_skipWhile mem (skipWhile_mem_of_ascii mem isDigit_lt)
    rw [rest] at digits
    show (if _ < _ then _ else _) = _
    dsimp only
    rw [← List.head?_drop, rest]
    cases value : ((encode text).drop behind).dropWhile (· == space) with
    | nil =>
      rw [value] at digits
      exact digits
    | cons b back =>
      by_cases mark : b = quote
      · -- the value stands behind the mark
        subst mark
        have startMem := (boundary_of_drop (rest.trans value) (by decide)).2
        have quoted := cut_skipWhile startMem (skipWhile_quote_mem startMem)
        rw [← List.drop_drop, rest, value] at quoted
        rw [List.head?_cons, if_pos rfl, if_pos rfl]
        exact quoted
      · have unquoted : ¬ (b :: back).head? = some quote := by simpa using mark
        have loose : (if b = quote then untilQuote back else (b :: back).takeWhile isDigit)
            = (b :: back).takeWhile isDigit := if_neg mark
        rw [value] at digits
        rw [if_neg unquoted, if_neg unquoted]
        exact digits.trans (congrArg (Except.ok <| decodeOrEmpty ·) loose.symm)

theorem fieldSlice_of_close {json key : Bytes} (close : closeSlice json key ≠ []) :
    fieldSlice json key = closeSlice json key := by
  rw [fieldSlice]
  exact if_neg (by simpa using close)

theorem fieldSlice_of_loose {json key : Bytes} (loose : closeSlice json key = []) :
    fieldSlice json key = looseSlice json key := by
  rw [fieldSlice]
  exact if_pos (by simpa using loose)

theorem field_eq (text key : String) : field text key = .ok (Scan.field text key) := by
  have suffixText : encode ":\"" = [colon, quote] := rfl
  rw [field, after_eq, suffixText, Scan.field]
  cases found : after? (encode text) (encode key) [colon, quote] with
  | none =>
    have none : closeSlice (encode text) (encode key) = [] := by rw [closeSlice, found]
    rw [fieldSlice_of_loose none]
    exact looseField_eq text key
  | some start =>
    have mem := after_mem (by decide) found
    have close : closeSlice (encode text) (encode key)
        = untilQuote ((encode text).drop start) := by
      rw [closeSlice, found]
    have moves : start < skipWhile text (· != quote) start ↔
        closeSlice (encode text) (encode key) ≠ [] := by
      rw [close, skipWhile, Nat.lt_add_right_iff_pos, List.length_pos_iff, untilQuote]
    show (if start < skipWhile text (· != quote) start then _ else _) = _
    by_cases some : closeSlice (encode text) (encode key) = []
    · rw [if_neg (fun ahead => moves.mp ahead some), fieldSlice_of_loose some]
      exact looseField_eq text key
    · rw [if_pos (moves.mpr some), fieldSlice_of_close some, close]
      exact slice_skipWhile mem (skipWhile_quote_mem mem)

/-! ## Objects -/

/-- What the count of braces comes to, from a position and a depth on. -/
inductive Closes (depth here : Nat) (bytes : Bytes) : Prop
  | never (ends : closing depth here bytes = .ok none) (all : balanced depth bytes = bytes)
  | behind (inner after : Bytes) (whole : bytes = inner ++ closeBrace :: after)
      (stops : closing depth here bytes = .ok (some (here + inner.length + 1)))
      (taken : balanced depth bytes = inner ++ [closeBrace])

/-- A byte that is passed belongs to what is taken. -/
theorem Closes.cons {depth deeper here : Nat} {b : UInt8} {rest : Bytes}
    (closes : Closes deeper (here + 1) rest)
    (passes : closing depth here (b :: rest) = closing deeper (here + 1) rest)
    (takes : balanced depth (b :: rest) = b :: balanced deeper rest) :
    Closes depth here (b :: rest) := by
  cases closes with
  | never ends all =>
    refine .never (passes.trans ends) ?_
    rw [takes, all]
  | behind inner after whole stops taken =>
    refine .behind (b :: inner) after (by rw [whole]; rfl) ?_ (by rw [takes, taken]; rfl)
    rw [passes, stops, List.length_cons, Nat.add_right_comm here 1, Nat.add_assoc here]

/-- **The depth is never decreased at zero** behind an opening brace, and the brace
that closes it ends the object. -/
theorem closing_of_open {depth : Nat} (opened : 0 < depth) (here : Nat) (bytes : Bytes) :
    Closes depth here bytes := by
  induction bytes generalizing depth here with
  | nil => exact .never rfl rfl
  | cons b rest ih =>
    by_cases opens : b = openBrace
    · exact (ih (Nat.succ_pos depth) _).cons (by rw [closing, if_pos opens])
        (by rw [balanced, if_pos opens])
    · by_cases closes : b = closeBrace
      · have counts : decrease depth = .ok (depth - 1) := if_neg (Nat.ne_of_gt opened)
        by_cases last : depth = 1
        · subst last closes
          exact .behind [] rest rfl rfl rfl
        · have deeper : depth - 1 ≠ 0 := by omega
          refine (ih (Nat.pos_of_ne_zero deeper) _).cons ?_ ?_
          · rw [closing, if_neg opens, if_pos closes, counts]
            exact if_neg deeper
          · rw [balanced, if_neg opens, if_pos closes, if_neg last]
      · exact (ih opened _).cons (by rw [closing, if_neg opens, if_neg closes])
          (by rw [balanced, if_neg opens, if_neg closes])

theorem object_eq (text key : String) : object text key = .ok (Scan.object text key) := by
  have suffixText : encode ":\x7b" = [colon, openBrace] := rfl
  rw [object, after_eq, suffixText, Scan.object, objectSlice]
  cases found : after? (encode text) (encode key) [colon, openBrace] with
  | none => rfl
  | some behind =>
    have ends : quote :: [colon, openBrace] = [quote, colon] ++ [openBrace] := rfl
    obtain ⟨start, back, rfl, here⟩ := drop_of_after ends found
    have before := (boundary_of_drop here (by decide)).1
    have opens : closing 0 start (openBrace :: back) = closing 1 (start + 1) back := rfl
    have takes : balanced 0 (openBrace :: back) = openBrace :: balanced 1 back := rfl
    show (closing 0 start ((encode text).drop start) >>= _) = _
    dsimp only
    rw [Nat.add_sub_cancel, here, opens, takes]
    cases closing_of_open Nat.one_pos (start + 1) back with
    | never ends all =>
      obtain ⟨part, cut, bytes⟩ := slice_to_end before
      rw [ends, all, ← here, ← bytes, decodeOrEmpty_encode]
      exact cut
    | behind inner after whole stops taken =>
      have stop : start + 1 + inner.length + 1 = start + (inner.length + 2) := by omega
      have split : (encode text).drop start = (openBrace :: inner) ++ closeBrace :: after := by
        rw [here, whole]
        rfl
      have brace : (encode text).drop (start + 1 + inner.length) = closeBrace :: after := by
        have rest := congrArg (List.drop (openBrace :: inner).length) split
        rw [List.drop_left, List.drop_drop, List.length_cons, Nat.add_comm inner.length,
          ← Nat.add_assoc] at rest
        exact rest
      have taken' : ((encode text).drop start).take (inner.length + 2)
          = openBrace :: (inner ++ [closeBrace]) := by
        rw [split, List.append_cons]
        exact List.take_left' (by simp)
      have behind := (boundary_of_drop brace (by decide)).2
      rw [stop] at behind
      rw [stops, taken, ← taken', stop]
      exact slice_of_mem before behind

/-! ## Values -/

theorem valueStart_eq (text key : String) :
    valueStart text key = .ok (valueStart? (encode text) (encode key)) := by
  rw [valueStart, after_eq, encode_empty, valueStart?]
  cases found : after? (encode text) (encode key) [] with
  | none => rfl
  | some behind =>
    show (find text [colon] behind >>= _) = _
    rw [find_eq (after_mem rfl found)]
    cases colons : findFrom (encode text) [colon] behind with
    | none =>
      simp only [colons]
      rfl
    | some colonAt =>
      simp only [colons]
      rfl

/-- A value begins between characters. -/
theorem valueStart_mem {key : Bytes} (found : valueStart? (encode text) key = some start) :
    start ∈ boundaries text.toList := by
  rw [valueStart?] at found
  split at found
  · cases found
  · next behind keyed =>
    split at found
    · cases found
    · next colonAt colons =>
      cases found
      have behindColon := (boundary_of_find colons (by decide)).2
      exact skipWhile_mem_of_ascii behindColon isSpaceOrTab_lt

theorem string?_eq (text key : String) : string? text key = .ok (Scan.string? text key) := by
  rw [string?, valueStart_eq, Scan.string?, stringSlice?]
  cases found : valueStart? (encode text) (encode key) with
  | none => rfl
  | some start =>
    have mem := valueStart_mem found
    show (find text [quote] start >>= _) = _
    rw [find_eq mem]
    cases opens : findFrom (encode text) [quote] start with
    | none =>
      simp only [opens]
      rfl
    | some opening =>
      have behind := (boundary_of_find opens (by decide)).2
      show (find text [quote] (opening + 1) >>= _) = _
      rw [find_eq behind]
      cases closes : findFrom (encode text) [quote] (opening + 1) with
      | none =>
        simp only [opens, closes]
        rfl
      | some closing =>
        -- the second mark is the first one behind the first
        obtain ⟨rest, split, stops⟩ := takeWhile_of_findFrom closes
        have skipped : closing = skipWhile text (· != quote) (opening + 1) := stops
        have cut := slice_skipWhile behind (skipWhile_quote_mem behind)
        simp only [opens, closes, take_to_quote closes]
        show (slice text (opening + 1) closing >>= _) = _
        rw [skipped, cut]
        rfl

theorem number?_eq (text key : String) : number? text key = .ok (Scan.number? text key) := by
  rw [number?, valueStart_eq, Scan.number?, digitsSlice?]
  cases found : valueStart? (encode text) (encode key) with
  | none => rfl
  | some start =>
    have mem := valueStart_mem found
    have cut := slice_skipWhile mem (skipWhile_mem_of_ascii mem isDigit_lt)
    have bytes := encode_of_slice cut
    rw [skipWhile, List.drop_take, Nat.add_sub_cancel_left, take_length_takeWhile] at bytes
    show (slice text start (skipWhile text isDigit start) >>= _) = _
    rw [cut, ok_bind]
    generalize decodeOrEmpty (((encode text).drop start).takeWhile isDigit) = part at bytes
    simp only [← bytes]
    by_cases none : part = ""
    · subst none
      rfl
    · cases digits : encode part with
      | nil => exact absurd (encode_injective digits) none
      | cons d rest =>
        show Except.ok (if part = "" then _ else some (leadingNumber (encode part))) = _
        rw [if_neg none, digits]

theorem boolean?_eq (text key : String) : boolean? text key = .ok (Scan.boolean? text key) := by
  rw [boolean?, valueStart_eq, Scan.boolean?]
  cases found : valueStart? (encode text) (encode key) with
  | none =>
    rfl
  | some start =>
    obtain ⟨part, cut, bytes⟩ := slice_to_end (valueStart_mem found)
    show (slice text start (encode text).length >>= _) = _
    rw [cut]
    simp only [← bytes]
    rfl

theorem hasError_eq (text : String) : hasError text = .ok (Receipt.hasError text) := by
  rw [hasError, Receipt.hasError, Receipt.reportsError]
  cases found : findFrom (encode text) (encode "\"error\"") 0 with
  | none => rfl
  | some key =>
    obtain ⟨back, occurs⟩ := prefix_of_findFrom (Nat.zero_le _) found
    have here : (encode text).drop key = quote :: (encode "error\"" ++ back) := occurs.symm
    obtain ⟨part, cut, bytes⟩ := slice_to_end (boundary_of_drop here (by decide)).1
    have shifted : findFrom (encode text) [colon] key
        = (findFrom (encode part) [colon] 0).map (key + ·) := by
      rw [bytes]
      exact searchAt_add key 0 _
    show (slice text key (encode text).length >>= _) = _
    rw [cut, ok_bind]
    simp only [shifted]
    cases findFrom (encode part) [colon] 0 with
    | none => rfl
    | some colonAt =>
      show Except.ok (Receipt.isErrorValue ((encode text).drop
        (skipWhile text isSpaceOrTab (key + colonAt + 1)))) = _
      rw [drop_skipWhile]
      rfl

/-! ## Parts of the text -/

/-- A text that stands somewhere in another one. -/
def IsPart (part text : String) : Prop := ∃ before after, text = before ++ part ++ after

theorem isPart_empty (text : String) : IsPart "" text := ⟨text, "", by simp⟩

theorem isPart_of_slice {part : String} (cut : slice text start stop = .ok part) :
    IsPart part text := by
  obtain ⟨before, after, whole, -⟩ := slice_eq_ok_iff.mp cut
  exact ⟨before, after, whole⟩

theorem isPart_of_cut {part : String}
    (cut : (if start < stop then slice text start stop else .ok "") = .ok part) :
    IsPart part text := by
  split at cut
  · exact isPart_of_slice cut
  · cases cut
    exact isPart_empty text

theorem isPart_of_looseField {part : String} (found : looseField text key = .ok part) :
    IsPart part text := by
  obtain ⟨behind, -, found⟩ := eq_ok_of_bind found
  cases behind with
  | none =>
    obtain rfl : "" = part := Except.ok.inj found
    exact isPart_empty text
  | some behind => exact isPart_of_cut found

theorem isPart_field (text key : String) : IsPart (Scan.field text key) text := by
  obtain ⟨start, -, found⟩ := eq_ok_of_bind (field_eq text key)
  cases start with
  | none => exact isPart_of_looseField found
  | some start =>
    dsimp only at found
    split at found
    · exact isPart_of_slice found
    · exact isPart_of_looseField found

theorem isPart_object (text key : String) : IsPart (Scan.object text key) text := by
  obtain ⟨behind, -, found⟩ := eq_ok_of_bind (object_eq text key)
  cases behind with
  | none =>
    have empty : "" = Scan.object text key := Except.ok.inj found
    exact empty ▸ isPart_empty text
  | some behind =>
    obtain ⟨start, -, found⟩ := eq_ok_of_bind found
    obtain ⟨stop, -, found⟩ := eq_ok_of_bind found
    cases stop with
    | none => exact isPart_of_slice found
    | some stop => exact isPart_of_slice found

/-- No quotation mark is spelled where there is none. -/
theorem noQuote_decodeOrEmpty {bytes : Bytes} (noQuote : quote ∉ bytes) :
    '"' ∉ (decodeOrEmpty bytes).toList := by
  rw [decodeOrEmpty]
  cases decoded : decode? bytes with
  | none => exact List.not_mem_nil
  | some shown =>
    rw [Option.getD_some]
    intro mem
    have spelled : String.utf8EncodeChar '"' = [quote] := rfl
    have here := (mem_spell_iff (by decide) spelled).mpr mem
    rw [← encode_eq_spell, encode_of_decode? decoded] at here
    exact noQuote here

theorem noQuote_field (text key : String) : '"' ∉ (Scan.field text key).toList := by
  apply noQuote_decodeOrEmpty
  have noDigit (bytes : Bytes) : quote ∉ bytes.takeWhile isDigit := by
    intro mem
    have digit := List.all_eq_true.mp (List.all_takeWhile (p := isDigit) (l := bytes)) _ mem
    cases digit
  have loose : quote ∉ looseSlice (encode text) (encode key) := by
    rw [looseSlice]
    split
    · exact List.not_mem_nil
    · split
      · exact List.not_mem_nil
      · split
        · exact quote_notMem_untilQuote _
        · exact noDigit _
  rw [fieldSlice]
  split
  · exact loose
  · rw [closeSlice]
    split
    · exact quote_notMem_untilQuote _
    · exact List.not_mem_nil

theorem isPart_string? {part : String} (found : Scan.string? text key = some part) :
    IsPart part text := by
  have checked := string?_eq text key
  rw [found] at checked
  obtain ⟨start, -, checked⟩ := eq_ok_of_bind checked
  cases start with
  | none => cases checked
  | some start =>
    obtain ⟨opening, -, checked⟩ := eq_ok_of_bind checked
    cases opening with
    | none => cases checked
    | some opening =>
      obtain ⟨closing, -, checked⟩ := eq_ok_of_bind checked
      cases closing with
      | none => cases checked
      | some closing =>
        obtain ⟨cutOut, cut, same⟩ := eq_ok_of_bind checked
        cases same
        exact isPart_of_slice cut

theorem noQuote_string? {part : String} (found : Scan.string? text key = some part) :
    '"' ∉ part.toList := by
  rw [Scan.string?] at found
  obtain ⟨bytes, sliced, rfl⟩ := Option.map_eq_some_iff.mp found
  apply noQuote_decodeOrEmpty
  rw [stringSlice?_eq] at sliced
  obtain ⟨value, -, between⟩ := Option.bind_eq_some_iff.mp sliced
  exact quote_notMem_quotedPart between

/-- **No scan of any text has a fault**, whatever the key is: all its cuts are in
order, inside the text and between characters, and no depth is decreased at zero.
What is found is what the unchecked scan finds.  It is a part of the text, and a
field or a quoted text holds no quotation mark. -/
theorem scans_are_safe (text key : String) :
    field text key = .ok (Scan.field text key) ∧
    object text key = .ok (Scan.object text key) ∧
    string? text key = .ok (Scan.string? text key) ∧
    number? text key = .ok (Scan.number? text key) ∧
    boolean? text key = .ok (Scan.boolean? text key) ∧
    hasError text = .ok (Receipt.hasError text) ∧
    (IsPart (Scan.field text key) text ∧ '"' ∉ (Scan.field text key).toList) ∧
    IsPart (Scan.object text key) text ∧
    ∀ part, Scan.string? text key = some part → IsPart part text ∧ '"' ∉ part.toList :=
  ⟨field_eq text key, object_eq text key, string?_eq text key, number?_eq text key,
    boolean?_eq text key, hasError_eq text, ⟨isPart_field text key, noQuote_field text key⟩,
    isPart_object text key, fun _ found => ⟨isPart_string? found, noQuote_string? found⟩⟩

/-- A key and a value of characters of several bytes, among braces and marks. -/
theorem scans_are_safe_multibyte :
    Scan.string? "\x7b\"ß\x7d\": \x7b\"é€𝄞\"" "ß\x7d" = some "é€𝄞" ∧
    IsPart "é€𝄞" "\x7b\"ß\x7d\": \x7b\"é€𝄞\"" := by
  have found : Scan.string? "\x7b\"ß\x7d\": \x7b\"é€𝄞\"" "ß\x7d" = some "é€𝄞" := by
    decide +kernel
  obtain ⟨-, -, -, -, -, -, -, -, parts⟩ := scans_are_safe "\x7b\"ß\x7d\": \x7b\"é€𝄞\"" "ß\x7d"
  exact ⟨found, (parts _ found).1⟩

end Guarded

end Scan

end HostBoundary
