import HostBoundary.Error

/-!
# Scanning JSON without parsing it

The host and the contract pick values out of JSON text by *scanning*: they look
for the first occurrence of a pattern made of the quoted key and work outwards
from there.  A scan is no parse.  It does not know which object a key belongs
to, so a key inside a nested object or inside an unrelated string is found just
as well, and a string value ends at the next quotation mark, escaped or not.

## Two layers

The scans are defined on bytes, where positions and slices are plain list
operations (`after?`, `fieldSlice`, `objectSlice`, `stringSlice?`).  On top of
them stand the same scans on texts.  A slice of a text that begins behind an
ASCII byte and ends before one is itself a text, so decoding a slice never
loses anything.

## What each scan finds

* `field` — the text of a quoted value, else the digits of a bare one, else
  nothing.  Nothing and the empty text are the same answer.
* `object` — an object value, from its opening brace to the brace that balances
  it, or to the end of the text if none does.
* `string?`, `number?`, `boolean?` — the next quoted text, the digits, or the
  truth value after the colon that follows the key.
* `amount`, `flag` — a field read as a number or as a truth value.
-/

namespace HostBoundary

namespace Scan

open Bytes

/-! ## Positions -/

/-- The pattern of a key: the key in quotation marks, then `suffix`. -/
def pattern (key suffix : Bytes) : Bytes := quote :: (key ++ quote :: suffix)

/-- The position behind the first occurrence of the quoted key and `suffix`. -/
def after? (json key suffix : Bytes) : Option Nat :=
  (findFrom json (pattern key suffix) 0).map (· + (pattern key suffix).length)

/-- The bytes before the next quotation mark. -/
def untilQuote (bytes : Bytes) : Bytes := bytes.takeWhile (· != quote)

theorem quote_notMem_untilQuote (bytes : Bytes) : quote ∉ untilQuote bytes := by
  intro h
  have unquoted := List.all_eq_true.mp (List.all_takeWhile (p := (· != quote)) (l := bytes)) _ h
  simp at unquoted

/-! ## Slices -/

/-- A quoted value that stands directly behind the colon. -/
def closeSlice (json key : Bytes) : Bytes :=
  match after? json key [colon, quote] with
  | some start => untilQuote (json.drop start)
  | none => []

/-- A value that may stand behind spaces: a quoted one, or digits. -/
def looseSlice (json key : Bytes) : Bytes :=
  match after? json key [colon] with
  | none => []
  | some start =>
    match (json.drop start).dropWhile (· == space) with
    | [] => []
    | b :: rest => if b = quote then untilQuote rest else (b :: rest).takeWhile isDigit

/-- The value of a field.  A quoted value directly behind the colon goes first,
wherever in the text it stands. -/
def fieldSlice (json key : Bytes) : Bytes :=
  let close := closeSlice json key
  if close.isEmpty then looseSlice json key else close

/-- The shortest prefix that closes all the braces it opens, where `depth` are
open already; everything if there is none. -/
def balanced : (depth : Nat) → Bytes → Bytes
  | _, [] => []
  | depth, b :: rest =>
    if b = openBrace then b :: balanced (depth + 1) rest
    else if b = closeBrace then
      if depth = 1 then [b] else b :: balanced (depth - 1) rest
    else b :: balanced depth rest

/-- The object behind a key. -/
def objectSlice (json key : Bytes) : Bytes :=
  match after? json key [colon, openBrace] with
  | some start => balanced 0 (json.drop (start - 1))
  | none => []

/-- Spaces and tabs. -/
def isSpaceOrTab (b : UInt8) : Bool := b == space || b == tab

/-- The position of the first byte of a value: behind the first colon after the
quoted key, and behind spaces and tabs. -/
def valueStart? (json key : Bytes) : Option Nat :=
  match after? json key [] with
  | none => none
  | some keyEnd =>
    match findFrom json [colon] keyEnd with
    | none => none
    | some colonAt =>
      let start := colonAt + 1
      some (start + ((json.drop start).takeWhile isSpaceOrTab).length)

/-- The next text in quotation marks after the key's colon. -/
def stringSlice? (json key : Bytes) : Option Bytes :=
  match valueStart? json key with
  | none => none
  | some start =>
    match findFrom json [quote] start with
    | none => none
    | some opening =>
      match findFrom json [quote] (opening + 1) with
      | none => none
      | some closing => some ((json.drop (opening + 1)).take (closing - (opening + 1)))

/-- The digits directly at the value. -/
def digitsSlice? (json key : Bytes) : Option Bytes :=
  match valueStart? json key with
  | none => none
  | some start => some ((json.drop start).takeWhile isDigit)

/-! ## Numbers -/

/-- The number that the leading digits spell, reduced to 64 bits. -/
def leadingNumber (bytes : Bytes) : UInt64 :=
  (bytes.takeWhile isDigit).foldl (fun n digit => n * 10 + (digit - 48).toUInt64) 0

/-! ## Scans on texts -/

/-- The number that the leading digits of a text spell, reduced to 64 bits. -/
def leadingAmount (text : String) : UInt64 := leadingNumber (Utf8.encode text)

/-- The value of a field, the empty text when there is none. -/
def field (json key : String) : String :=
  Utf8.decodeOrEmpty (fieldSlice (Utf8.encode json) (Utf8.encode key))

/-- The object behind a key, the empty text when there is none. -/
def object (json key : String) : String :=
  Utf8.decodeOrEmpty (objectSlice (Utf8.encode json) (Utf8.encode key))

/-- The next text in quotation marks after a key. -/
def string? (json key : String) : Option String :=
  (stringSlice? (Utf8.encode json) (Utf8.encode key)).map Utf8.decodeOrEmpty

/-- The number behind a key, if a digit stands there. -/
def number? (json key : String) : Option UInt64 :=
  match digitsSlice? (Utf8.encode json) (Utf8.encode key) with
  | some (d :: rest) => some (leadingNumber (d :: rest))
  | _ => none

/-- The truth value behind a key. -/
def boolean? (json key : String) : Option Bool :=
  let bytes := Utf8.encode json
  match valueStart? bytes (Utf8.encode key) with
  | none => none
  | some start =>
    if (Utf8.encode "true").isPrefixOf (bytes.drop start) then some true
    else if (Utf8.encode "false").isPrefixOf (bytes.drop start) then some false
    else none

/-- A field as a number, zero when it has no digits. -/
def amount (json key : String) : UInt64 := leadingAmount (field json key)

/-- A field as a truth value: `true` and `1` are true. -/
def flag (json key : String) : Bool := field json key = "true" || field json key = "1"

end Scan

end HostBoundary
