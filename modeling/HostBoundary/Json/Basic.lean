/-!
# JSON values and their compact text

A JSON value is a tree.  Objects keep their members in order and keep
repeated keys, because the texts that cross the boundary are compared as texts:
two objects that differ in the order of their members are two messages.

Numbers are kept exactly.  A number that is written with digits alone is a
natural number; every other spelling (a sign, a fraction, an exponent) is kept
as it was written, since no such number means anything to the boundary.

`Json.chars` writes a value without any blank, and `Json.text` is the same as a
text.  A string escapes the quotation mark, the backslash and the control
characters, and nothing else.
-/

namespace HostBoundary

/-- A JSON number. -/
inductive JsonNumber where
  /-- A number written with digits alone. -/
  | natural (n : Nat)
  /-- A number written in any other way, as it is written. -/
  | spelled (lexeme : String)
deriving DecidableEq, Repr

/-- A JSON value. -/
inductive Json where
  | null
  | bool (b : Bool)
  | number (n : JsonNumber)
  | string (s : String)
  | array (items : List Json)
  | object (members : List (String × Json))
deriving Repr

namespace Json

/-! ## Short forms -/

/-- A natural number as a value. -/
def nat (n : Nat) : Json := .number (.natural n)

/-- A value that may be missing, where `null` stands for a missing one. -/
def orNull {α : Type} (toJson : α → Json) : Option α → Json
  | some a => toJson a
  | none => .null

/-- The value of the last member with a key. -/
def lastMember? (key : String) (members : List (String × Json)) : Option Json :=
  (members.reverse.find? fun member => member.1 == key).map (·.2)

/-! ## Writing -/

/-- The lowercase hexadecimal digit of a number below 16. -/
def hexDigit (n : Nat) : Char := Nat.digitChar n

/-- A character as it stands inside a string. -/
def escapeChar (c : Char) : List Char :=
  if c = '"' then ['\\', '"']
  else if c = '\\' then ['\\', '\\']
  else if c.toNat = 8 then ['\\', 'b']
  else if c.toNat = 9 then ['\\', 't']
  else if c.toNat = 10 then ['\\', 'n']
  else if c.toNat = 12 then ['\\', 'f']
  else if c.toNat = 13 then ['\\', 'r']
  else if c.toNat < 32 then
    ['\\', 'u', '0', '0', hexDigit (c.toNat / 16), hexDigit (c.toNat % 16)]
  else [c]

/-- A string between quotation marks. -/
def stringChars (s : String) : List Char := '"' :: (s.toList.flatMap escapeChar ++ ['"'])

/-- A number as it is written. -/
def numberChars : JsonNumber → List Char
  | .natural n => Nat.toDigits 10 n
  | .spelled lexeme => lexeme.toList

mutual

/-- The compact text of a value. -/
def chars : Json → List Char
  | .null => ['n', 'u', 'l', 'l']
  | .bool true => ['t', 'r', 'u', 'e']
  | .bool false => ['f', 'a', 'l', 's', 'e']
  | .number n => numberChars n
  | .string s => stringChars s
  | .array items => '[' :: (itemsChars items ++ [']'])
  | .object members => '{' :: (membersChars members ++ ['}'])

/-- The items of an array, with commas between them. -/
def itemsChars : List Json → List Char
  | [] => []
  | [item] => chars item
  | item :: next :: rest => chars item ++ ',' :: itemsChars (next :: rest)

/-- The members of an object, with commas between them. -/
def membersChars : List (String × Json) → List Char
  | [] => []
  | [(key, value)] => stringChars key ++ ':' :: chars value
  | (key, value) :: next :: rest =>
    stringChars key ++ ':' :: (chars value ++ ',' :: membersChars (next :: rest))

end

/-- The compact text of a value. -/
def text (value : Json) : String := String.ofList value.chars

end Json

end HostBoundary
