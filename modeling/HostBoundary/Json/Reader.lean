import HostBoundary.Json.Basic

/-!
# Reading JSON

The grammar is that of RFC 8259, and nothing beyond it: one value, blanks
around the tokens, no trailing comma, no leading zero, no bare control
character inside a string.  A `\u` escape is a character of its own or one half
of a surrogate pair whose other half follows at once; a half alone is refused,
because a text holds characters only.

## Shape

Every reader takes the characters that are left and answers what it read
together with the characters after it.  Strings are read by structural
recursion on the characters.  Values nest, so they are read under a bound on
the count of steps (`value?`, `items?`, `members?`); each step takes at least
one character, so the length of the text is bound enough (`parse?`).
-/

namespace HostBoundary

namespace Json

/-! ## Blanks -/

/-- The four blank characters. -/
def isBlank (c : Char) : Bool := c = ' ' || c = '\t' || c = '\n' || c = '\r'

/-- The characters behind leading blanks. -/
def skipBlanks (s : List Char) : List Char := s.dropWhile isBlank

/-! ## Strings -/

/-- The character that a one-letter escape stands for. -/
def unescape? (c : Char) : Option Char :=
  if c = '"' then some '"'
  else if c = '\\' then some '\\'
  else if c = '/' then some '/'
  else if c = 'b' then some (Char.ofNat 8)
  else if c = 'f' then some (Char.ofNat 12)
  else if c = 'n' then some '\n'
  else if c = 'r' then some '\r'
  else if c = 't' then some '\t'
  else none

/-- The number that a hexadecimal digit of either case stands for. -/
def hexValue? (c : Char) : Option Nat :=
  if '0' ≤ c && c ≤ '9' then some (c.toNat - 48)
  else if 'a' ≤ c && c ≤ 'f' then some (c.toNat - 87)
  else if 'A' ≤ c && c ≤ 'F' then some (c.toNat - 55)
  else none

/-- The code unit that four hexadecimal digits spell. -/
def codeUnit? (a b c d : Char) : Option Nat := do
  return ((← hexValue? a) * 16 + (← hexValue? b)) * 256
    + ((← hexValue? c) * 16 + (← hexValue? d))

/-- What a code unit means behind an optional high surrogate: a character, or
a new high surrogate that waits for its other half. -/
def pairUp? (high : Option Nat) (unit : Nat) : Option (Char ⊕ Nat) :=
  match high with
  | none =>
    if 0xD800 ≤ unit && unit < 0xDC00 then some (.inr unit)
    else if 0xDC00 ≤ unit && unit < 0xE000 then none
    else some (.inl (Char.ofNat unit))
  | some high =>
    if 0xDC00 ≤ unit && unit < 0xE000 then
      some (.inl (Char.ofNat (0x10000 + (high - 0xD800) * 0x400 + (unit - 0xDC00))))
    else none

/-- The rest of a string behind its opening quotation mark, where `read` holds
the characters so far, the last one first, and `high` a surrogate that waits. -/
def stringBody? (high : Option Nat) (read : List Char) :
    List Char → Option (String × List Char)
  | [] => none
  | c :: rest =>
    if c = '\\' then
      match rest with
      | 'u' :: d₁ :: d₂ :: d₃ :: d₄ :: rest =>
        match (codeUnit? d₁ d₂ d₃ d₄).bind (pairUp? high) with
        | some (.inl c) => stringBody? none (c :: read) rest
        | some (.inr high) => stringBody? (some high) read rest
        | none => none
      | e :: rest =>
        match high, unescape? e with
        | none, some c => stringBody? none (c :: read) rest
        | _, _ => none
      | [] => none
    else if high.isSome then none
    else if c = '"' then some (String.ofList read.reverse, rest)
    else if c.toNat < 32 then none
    else stringBody? none (c :: read) rest

/-! ## Numbers -/

/-- The digits at the front. -/
def frontDigits (s : List Char) : List Char := s.takeWhile Char.isDigit

/-- At least one digit. -/
def digits? (s : List Char) : Option (List Char × List Char) :=
  if (frontDigits s).isEmpty then none
  else some (frontDigits s, s.dropWhile Char.isDigit)

/-- A whole number: a zero, or digits that do not begin with one. -/
def whole? (s : List Char) : Option (List Char × List Char) :=
  match s with
  | '0' :: rest => some (['0'], rest)
  | _ => digits? s

/-- A fraction, or nothing where there is no point. -/
def fraction? (s : List Char) : Option (List Char × List Char) :=
  match s with
  | '.' :: rest => (digits? rest).map fun (digits, rest) => ('.' :: digits, rest)
  | _ => some ([], s)

/-- The sign of an exponent. -/
def sign (s : List Char) : List Char × List Char :=
  match s with
  | '+' :: rest => (['+'], rest)
  | '-' :: rest => (['-'], rest)
  | _ => ([], s)

/-- An exponent, or nothing where there is no letter for one. -/
def exponent? (s : List Char) : Option (List Char × List Char) :=
  match s with
  | e :: rest =>
    if e = 'e' || e = 'E' then
      let (sign, rest) := sign rest
      (digits? rest).map fun (digits, rest) => (e :: (sign ++ digits), rest)
    else some ([], s)
  | [] => some ([], [])

/-- A number. -/
def number? (s : List Char) : Option (JsonNumber × List Char) := do
  let (minus, s) := match s with
    | '-' :: rest => (['-'], rest)
    | _ => ([], s)
  let (whole, s) ← whole? s
  let (fraction, s) ← fraction? s
  let (exponent, s) ← exponent? s
  if minus.isEmpty && fraction.isEmpty && exponent.isEmpty then
    return (.natural (Nat.ofDigitChars 10 whole 0), s)
  else
    return (.spelled (String.ofList (minus ++ whole ++ fraction ++ exponent)), s)

/-! ## Values -/

mutual

/-- A value that begins at the first character. -/
def value? : (fuel : Nat) → List Char → Option (Json × List Char)
  | 0, _ => none
  | fuel + 1, s =>
    match s with
    | 'n' :: 'u' :: 'l' :: 'l' :: rest => some (.null, rest)
    | 't' :: 'r' :: 'u' :: 'e' :: rest => some (.bool true, rest)
    | 'f' :: 'a' :: 'l' :: 's' :: 'e' :: rest => some (.bool false, rest)
    | '"' :: rest => (stringBody? none [] rest).map fun (s, rest) => (.string s, rest)
    | '[' :: rest =>
      match skipBlanks rest with
      | ']' :: rest => some (.array [], rest)
      | rest => (items? fuel rest).map fun (items, rest) => (.array items, rest)
    | '{' :: rest =>
      match skipBlanks rest with
      | '}' :: rest => some (.object [], rest)
      | rest => (members? fuel rest).map fun (members, rest) => (.object members, rest)
    | s => (number? s).map fun (n, rest) => (.number n, rest)

/-- One item or more, up to the closing bracket. -/
def items? : (fuel : Nat) → List Char → Option (List Json × List Char)
  | 0, _ => none
  | fuel + 1, s =>
    match value? fuel s with
    | none => none
    | some (item, rest) =>
      match skipBlanks rest with
      | ',' :: rest =>
        (items? fuel (skipBlanks rest)).map fun (items, rest) => (item :: items, rest)
      | ']' :: rest => some ([item], rest)
      | _ => none

/-- One member or more, up to the closing brace. -/
def members? : (fuel : Nat) → List Char → Option (List (String × Json) × List Char)
  | 0, _ => none
  | fuel + 1, s =>
    match s with
    | '"' :: rest =>
      match stringBody? none [] rest with
      | none => none
      | some (key, rest) =>
        match skipBlanks rest with
        | ':' :: rest =>
          match value? fuel (skipBlanks rest) with
          | none => none
          | some (value, rest) =>
            match skipBlanks rest with
            | ',' :: rest =>
              (members? fuel (skipBlanks rest)).map
                fun (members, rest) => ((key, value) :: members, rest)
            | '}' :: rest => some ([(key, value)], rest)
            | _ => none
        | _ => none
    | _ => none

end

/-- The value that a text spells, if the whole text is one JSON value. -/
def parse? (text : String) : Option Json :=
  match value? (text.toList.length + 1) (skipBlanks text.toList) with
  | some (value, rest) => if (skipBlanks rest).isEmpty then some value else none
  | none => none

end Json

end HostBoundary
