import HostBoundary.Codec.Base64
import HostBoundary.Codec.Hex

/-!
# Status codes and boundary errors

The two sides of the boundary report trouble in two vocabularies.  The host
answers a *status code*, a number with a fixed set of meanings; whatever it
does not know is `unknown`.  The contract side works with *boundary errors*,
which keep the cause, and each of which maps to one status code when it is
reported outwards (`BoundaryError.code`).

## Main definitions

* `StatusCode`, `StatusCode.ofHost`, `StatusCode.toHost` — the numbers.
* `BoundaryError`, `BoundaryError.message`, `BoundaryError.code` — the causes.

`ofHost` is a retraction of `toHost`: a code survives being sent.  The all-ones
number is how a call reports that it failed without saying why, and reads as a
failed execution.
-/

namespace HostBoundary

/-! ## Status codes -/

/-- What the host says about a call. -/
inductive StatusCode where
  | success
  | invalidParams
  | insufficientBalance
  | unauthorized
  | notFound
  | alreadyExists
  | executionFailed
  | invalidState
  | timeout
  | notImplemented
  | permissionDenied
  | unknown
deriving DecidableEq, Repr

namespace StatusCode

/-- The number that stands for a failure without a reason. -/
def failureFlag : UInt32 := 0xFFFFFFFF

/-- The number of a status code. -/
def toHost : StatusCode → UInt32
  | success => 0
  | invalidParams => 1
  | insufficientBalance => 2
  | unauthorized => 3
  | notFound => 4
  | alreadyExists => 5
  | executionFailed => 6
  | invalidState => 7
  | timeout => 8
  | notImplemented => 9
  | permissionDenied => 10
  | unknown => 999

/-- All status codes, in the order of their numbers. -/
def all : List StatusCode :=
  [success, invalidParams, insufficientBalance, unauthorized, notFound, alreadyExists,
    executionFailed, invalidState, timeout, notImplemented, permissionDenied, unknown]

/-- The status code of a number.  A number that no code has is `unknown`. -/
def ofHost (number : UInt32) : StatusCode :=
  if number = failureFlag then executionFailed
  else (all.find? fun code => code.toHost == number).getD unknown

/-- A code survives being sent. -/
@[simp] theorem ofHost_toHost (code : StatusCode) : ofHost code.toHost = code := by
  cases code <;> rfl

/-- Only the number zero is a success. -/
theorem ofHost_eq_success_iff (number : UInt32) : ofHost number = success ↔ number = 0 := by
  constructor
  · intro h
    by_cases flag : number = failureFlag
    · rw [ofHost, if_pos flag] at h
      cases h
    · rw [ofHost, if_neg flag] at h
      cases found : all.find? fun code => code.toHost == number with
      | none =>
        rw [found] at h
        cases h
      | some code =>
        have same : code = success := by simpa [found] using h
        have sent := List.find?_some found
        rw [same] at sent
        exact (eq_of_beq sent).symm
  · rintro rfl
    rfl

/-- Codes are ordered as they are declared, which is the order of their
numbers. -/
instance : Ord StatusCode := ⟨fun a b => compare a.toHost b.toHost⟩

/-- Whether the code is the success. -/
def isSuccess (code : StatusCode) : Bool := code = success

/-- The identifier of a code. -/
def name : StatusCode → String
  | success => "Success"
  | invalidParams => "InvalidParams"
  | insufficientBalance => "InsufficientBalance"
  | unauthorized => "Unauthorized"
  | notFound => "NotFound"
  | alreadyExists => "AlreadyExists"
  | executionFailed => "ExecutionFailed"
  | invalidState => "InvalidState"
  | timeout => "Timeout"
  | notImplemented => "NotImplemented"
  | permissionDenied => "PermissionDenied"
  | unknown => "Unknown"

/-- The status code of an identifier. -/
def ofName? (name : String) : Option StatusCode := all.find? fun code => code.name == name

@[simp] theorem ofName?_name (code : StatusCode) : ofName? code.name = some code := by
  cases code <;> decide

/-- The wording of the code. -/
def description : StatusCode → String
  | success => "Success"
  | invalidParams => "Invalid parameters"
  | insufficientBalance => "Insufficient balance"
  | unauthorized => "Unauthorized"
  | notFound => "Not found"
  | alreadyExists => "Already exists"
  | executionFailed => "Execution failed"
  | invalidState => "Invalid state"
  | timeout => "Timeout"
  | notImplemented => "Not implemented"
  | permissionDenied => "Permission denied"
  | unknown => "Unknown error"

/-- The class under which a gateway files the code; a success has none. -/
def gatewayClass : StatusCode → String
  | success => ""
  | invalidParams | unauthorized | alreadyExists | permissionDenied => "COMMON_VALIDATION_ERROR"
  | insufficientBalance => "BC_INSUFFICIENT_BALANCE"
  | notFound => "BC_CONTRACT_NOT_FOUND"
  | executionFailed | invalidState | notImplemented => "BC_CONTRACT_INVOCATION_FAILED"
  | timeout => "COMMON_TIMEOUT"
  | unknown => "COMMON_INTERNAL_ERROR"

/-- The status under which an HTTP gateway answers. -/
def httpStatus : StatusCode → Nat
  | success => 200
  | invalidParams => 400
  | unauthorized => 401
  | permissionDenied => 403
  | notFound => 404
  | timeout => 408
  | alreadyExists => 409
  | insufficientBalance | executionFailed | invalidState => 422
  | unknown => 500
  | notImplemented => 501

end StatusCode

/-! ## Boundary errors -/

/-- Why a call across the boundary failed. -/
inductive BoundaryError where
  /-- The host did not grant an allocation. -/
  | outOfMemory
  /-- There is no such value. -/
  | absent
  /-- A payload does not have the expected form. -/
  | malformed (detail : String)
  /-- A text is not base64. -/
  | base64 (byte : UInt8) (position : UInt64)
  /-- A text is not hexadecimal. -/
  | hex (detail : String)
  /-- Bytes are not a text. -/
  | utf8
  /-- The host answered a status code other than success. -/
  | host (code : StatusCode)
  /-- A pointer or a length is wider than 32 bits. -/
  | tooWide
deriving DecidableEq, Repr

namespace BoundaryError

/-- The identifier of the error. -/
def kind : BoundaryError → String
  | outOfMemory => "OutOfMemory"
  | absent => "Absent"
  | malformed _ => "Malformed"
  | base64 _ _ => "Base64"
  | hex _ => "Hex"
  | utf8 => "Utf8"
  | host _ => "Host"
  | tooWide => "PointerMap"

/-- The wording of the error. -/
def message : BoundaryError → String
  | outOfMemory => "host allocator returned a null offset"
  | absent => "requested value is absent"
  | malformed detail => "malformed payload: " ++ detail
  | base64 byte position =>
    "invalid base64 byte " ++ Hex.encodeMarked [byte] ++ " at position "
      ++ toString position.toNat
  | hex detail => "invalid hex: " ++ detail
  | utf8 => "invalid utf-8 in guest memory"
  | host code => "host reported failure: " ++ code.description
  | tooWide => "pointer or length does not fit in wasm32"

/-- The status code that an error is reported as. -/
def code : BoundaryError → StatusCode
  | host code => code
  | absent => .notFound
  | malformed _ | base64 _ _ | hex _ | utf8 => .invalidParams
  | outOfMemory | tooWide => .executionFailed

/-- The error of a refused base64 text. -/
def ofBase64 (refusal : Base64.Refusal) : BoundaryError :=
  base64 refusal.byte (UInt64.ofNat refusal.position)

/-- The error of a refused hexadecimal text. -/
def ofHex (refusal : Hex.Refusal) : BoundaryError := hex refusal.message

/-- The outcome of a call that answers a number. -/
def ofStatus (number : UInt32) : Except BoundaryError Unit :=
  match StatusCode.ofHost number with
  | .success => .ok ()
  | code => .error (host code)

end BoundaryError

/-! ## Conversions that fail with a boundary error -/

/-- The bytes of a base64 text. -/
def decodeBase64 (text : String) : Except BoundaryError Bytes :=
  (Base64.decode (Utf8.encode text)).mapError BoundaryError.ofBase64

/-- The bytes of a base64 text, none for an unreadable text. -/
def decodeBase64OrEmpty (text : String) : Bytes := Base64.decodeOrEmpty (Utf8.encode text)

/-- The bytes of a hexadecimal text. -/
def decodeHex (text : String) : Except BoundaryError Bytes :=
  (Hex.decode (Utf8.encode text)).mapError BoundaryError.ofHex

/-- The text that the bytes spell. -/
def decodeUtf8 (bytes : Bytes) : Except BoundaryError String :=
  match Utf8.decode? bytes with
  | some text => .ok text
  | none => .error .utf8

/-- A number as a pointer or a length. -/
def narrow (n : Nat) : Except BoundaryError UInt32 :=
  if n < UInt32.size then .ok (UInt32.ofNat n) else .error .tooWide

/-- The number that the first eight bytes spell. -/
def readUInt64 (bytes : Bytes) : Except BoundaryError UInt64 :=
  if 8 ≤ bytes.length then .ok (UInt64.ofNat (Bytes.fromLittleEndian (bytes.take 8)))
  else .error (.malformed "expected 8 bytes for u64")

/-- The number that exactly four bytes spell. -/
def readUInt32 (bytes : Bytes) : Except BoundaryError UInt32 :=
  if bytes.length = 4 then .ok (UInt32.ofNat (Bytes.fromLittleEndian bytes))
  else .error .tooWide

end HostBoundary
