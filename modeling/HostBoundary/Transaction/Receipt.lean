import HostBoundary.Json.Scan

/-!
# Receipts

The host answers a draft by filling a buffer of a fixed size with a JSON
receipt, and does not say how much of it it used.  The end of the receipt is
therefore found from the back: behind the last closing brace only padding may
stand (`jsonEnd`).

A receipt reports an error when the first value under an `error` key is
something other than `null` or the empty text (`hasError`).  A missing closing
brace, bytes that are no text, and a reported error all make the receipt
unusable, and all read as a failed execution.
-/

namespace HostBoundary

/-- A usable receipt. -/
structure Receipt where
  /-- Its JSON text. -/
  json : String
deriving DecidableEq, Repr

namespace Receipt

open Bytes

/-- The bytes that may stand behind a receipt. -/
def isPadding (b : UInt8) : Bool := b = 32 || b = 9 || b = 10 || b = 13 || b = 0

/-- The length of the JSON text at the front: up to the closing brace behind
which only padding stands, and zero when there is none. -/
def jsonEnd (data : Bytes) : Nat :=
  match data.reverse.dropWhile isPadding with
  | b :: before => if b = closeBrace then before.length + 1 else 0
  | [] => 0

/-- Whether a value that begins with these bytes is an error: not `null`, and
not the empty text.  Only the first byte tells `null`. -/
def isErrorValue : Bytes → Bool
  | [] => true
  | b :: rest => if b = 110 then false else if b = quote then rest.head? != some quote else true

/-- Whether the first `error` key carries an error. -/
def reportsError (receipt : Bytes) : Bool :=
  match findFrom receipt (Utf8.encode "\"error\"") 0 with
  | none => false
  | some key =>
    match findFrom receipt [colon] key with
    | none => false
    | some colonAt =>
      isErrorValue ((receipt.drop (colonAt + 1)).dropWhile Scan.isSpaceOrTab)

/-- Whether the text of a receipt reports an error. -/
def hasError (receipt : String) : Bool := reportsError (Utf8.encode receipt)

/-- The usable receipt that the bytes hold. -/
def parse (raw : Bytes) : Except BoundaryError Receipt :=
  let length := jsonEnd raw
  if length = 0 then .error (.host .executionFailed)
  else
    match Utf8.decode? (raw.take length) with
    | none => .error (.host .executionFailed)
    | some json =>
      if hasError json then .error (.host .executionFailed) else .ok ⟨json⟩

/-- A field of the receipt. -/
def field (receipt : Receipt) (key : String) : String := Scan.field receipt.json key

/-- The text followed by zero bytes up to `capacity`, as a filled buffer looks. -/
def padded (json : String) (capacity : Nat) : Bytes :=
  let bytes := Utf8.encode json
  bytes ++ List.replicate (capacity - bytes.length) 0

end Receipt

end HostBoundary
