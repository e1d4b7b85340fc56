import HostBoundary.Json.Basic

/-!
# Flat objects

Events and call parameters are objects of texts under texts.  They are written
with five escapes only (quotation mark, backslash, line feed, carriage return,
tab); all other characters stand as they are.

`Flat.parse?` reads exactly this form: an object whose keys and values are
strings, whose escapes are those five, and in which no blank stands between the
tokens.
-/

namespace HostBoundary

namespace Flat

/-! ## Writing -/

/-- A character as it stands inside a string. -/
def escapeChar (c : Char) : List Char :=
  if c = '"' then ['\\', '"']
  else if c = '\\' then ['\\', '\\']
  else if c = '\n' then ['\\', 'n']
  else if c = '\r' then ['\\', 'r']
  else if c = '\t' then ['\\', 't']
  else [c]

/-- Characters as they stand inside a string. -/
def escapeChars (s : List Char) : List Char := s.flatMap escapeChar

/-- A text as it stands inside a string. -/
def escape (text : String) : String := String.ofList (escapeChars text.toList)

/-- A text between quotation marks. -/
def stringChars (text : String) : List Char := '"' :: (escapeChars text.toList ++ ['"'])

/-- A pair of texts. -/
def pairChars (pair : String × String) : List Char :=
  stringChars pair.1 ++ ':' :: stringChars pair.2

/-- Pairs, with commas between them. -/
def pairsChars : List (String × String) → List Char
  | [] => []
  | [pair] => pairChars pair
  | pair :: next :: rest => pairChars pair ++ ',' :: pairsChars (next :: rest)

/-- The object of the pairs, in their order. -/
def text (pairs : List (String × String)) : String :=
  String.ofList ('{' :: (pairsChars pairs ++ ['}']))

/-! ## Reading -/

/-- The character that an escape stands for. -/
def unescape? (c : Char) : Option Char :=
  if c = '"' then some '"'
  else if c = '\\' then some '\\'
  else if c = 'n' then some '\n'
  else if c = 'r' then some '\r'
  else if c = 't' then some '\t'
  else none

/-- The rest of a string behind its opening quotation mark, where `read` holds
the characters so far, the last one first. -/
def stringBody? (read : List Char) : List Char → Option (String × List Char)
  | [] => none
  | c :: rest =>
    if c = '"' then some (String.ofList read.reverse, rest)
    else if c = '\\' then
      match rest with
      | [] => none
      | e :: rest =>
        match unescape? e with
        | some c => stringBody? (c :: read) rest
        | none => none
    else stringBody? (c :: read) rest

/-- A string between quotation marks. -/
def string? (s : List Char) : Option (String × List Char) :=
  match s with
  | '"' :: rest => stringBody? [] rest
  | _ => none

/-- A pair of strings with a colon between them. -/
def pair? (s : List Char) : Option ((String × String) × List Char) :=
  match string? s with
  | some (key, ':' :: rest) => (string? rest).map fun (value, rest) => ((key, value), rest)
  | _ => none

/-- One pair or more, up to the closing brace.  Each pair takes a character, so
the count of characters bounds the steps. -/
def pairs? : (fuel : Nat) → List Char → Option (List (String × String) × List Char)
  | 0, _ => none
  | fuel + 1, s =>
    match pair? s with
    | some (pair, ',' :: rest) =>
      (pairs? fuel rest).map fun (pairs, rest) => (pair :: pairs, rest)
    | some (pair, '}' :: rest) => some ([pair], rest)
    | _ => none

/-- The pairs that a text spells, if the whole text is a flat object. -/
def parse? (text : String) : Option (List (String × String)) :=
  match text.toList with
  | ['{', '}'] => some []
  | '{' :: rest =>
    match pairs? rest.length rest with
    | some (pairs, []) => some pairs
    | _ => none
  | _ => none

end Flat

end HostBoundary
