import HostBoundary.Proofs.Reading

/-!
# What is written is read back

The compact text of a value is one JSON text, and reading it gives the value.
So no two values share a text, and a question about texts becomes one about
trees.

## Numbers that end

A number is the one value whose end is not part of it: its reader goes on as
long as it can.  So a number is read back only in front of something that does
not continue it (`NumberEnds`), and in a compact text that is what stands there:
a comma, a bracket or the end.

The spelling of a number that is not natural is kept as it was, and nothing says
that it is one.  Hence the results are about values whose numbers are read as
they are written (`Legible`).  Natural numbers are.

## Steps

A reader takes no more steps than there are characters in what it reads, which
is the invariant that its bound asks for (`readBack`).
-/

namespace HostBoundary

namespace Json

variable {s rest : List Char} {fuel : Nat}

/-! ## Strings -/

theorem hexValue?_hexDigit {n : Nat} (small : n < 16) : hexValue? (hexDigit n) = some n := by
  have each : ∀ n < 16, hexValue? (hexDigit n) = some n := by decide
  exact each n small

/-- A control character is read back from its four digits. -/
theorem codeUnit?_control {n : Nat} (small : n < 32) :
    codeUnit? '0' '0' (hexDigit (n / 16)) (hexDigit (n % 16)) = some n := by
  have zero : hexValue? '0' = some 0 := by decide
  rw [codeUnit?, zero, hexValue?_hexDigit (by omega), hexValue?_hexDigit (by omega)]
  show some ((0 * 16 + 0) * 256 + (n / 16 * 16 + n % 16)) = some n
  congr 1
  omega

/-- An escape of one letter stands for a character. -/
theorem stringBody?_letter {e c : Char} (notUnit : e ≠ 'u') (stands : unescape? e = some c)
    (read s : List Char) :
    stringBody? none read ('\\' :: e :: s) = stringBody? none (c :: read) s := by
  rw [stringBody?.eq_def]
  simp only [if_true]
  split
  · next same => exact absurd (List.cons.inj same).1 notUnit
  · next same =>
    obtain ⟨rfl, rfl⟩ := List.cons.inj same
    rw [stands]
  · next impossible => cases impossible

/-- An escape of four digits stands for a control character. -/
theorem stringBody?_unit {d₁ d₂ d₃ d₄ : Char} {n : Nat} (small : n < 32)
    (stands : codeUnit? d₁ d₂ d₃ d₄ = some n) (read s : List Char) :
    stringBody? none read ('\\' :: 'u' :: d₁ :: d₂ :: d₃ :: d₄ :: s)
      = stringBody? none (Char.ofNat n :: read) s := by
  have noSurrogate : pairUp? none n = some (.inl (Char.ofNat n)) := by
    rw [pairUp?, if_neg (by simp; omega), if_neg (by simp; omega)]
  rw [stringBody?.eq_def]
  simp only [if_true, stands, Option.bind_some, noSurrogate]

/-- A character is read back from what is written for it. -/
theorem stringBody?_escapeChar (c : Char) (read s : List Char) :
    stringBody? none read (escapeChar c ++ s) = stringBody? none (c :: read) s := by
  have ofNat {n : Nat} (number : c.toNat = n) : Char.ofNat n = c := by
    rw [← number, Char.ofNat_toNat]
  unfold escapeChar
  split
  · next quote =>
    subst quote
    exact stringBody?_letter (by decide) rfl read s
  split
  · next backslash =>
    subst backslash
    exact stringBody?_letter (by decide) rfl read s
  iterate 5
    split
    · next number =>
      rw [← ofNat number]
      exact stringBody?_letter (by decide) rfl read s
  split
  · next control =>
    have read' := stringBody?_unit control (codeUnit?_control control) read s
    rwa [Char.ofNat_toNat] at read'
  · next notQuote notBackslash _ _ _ _ _ notControl =>
    exact stringBody?_plain notBackslash notQuote notControl read s

/-- A string is read back up to its closing quotation mark. -/
theorem stringBody?_escaped (read chars s : List Char) :
    stringBody? none read (chars.flatMap escapeChar ++ '"' :: s)
      = some (String.ofList (read.reverse ++ chars), s) := by
  induction chars generalizing read with
  | nil => rw [List.flatMap_nil, List.nil_append, stringBody?_quote, List.append_nil]
  | cons c chars ih =>
    rw [List.flatMap_cons, List.append_assoc, stringBody?_escapeChar, ih, List.reverse_cons,
      List.append_assoc]
    rfl

theorem stringBody?_text (text : String) (s : List Char) :
    stringBody? none [] (text.toList.flatMap escapeChar ++ '"' :: s) = some (text, s) := by
  rw [stringBody?_escaped, List.reverse_nil, List.nil_append, String.ofList_toList]

/-- Characters that stand in a string as they are. -/
def Unescaped (s : List Char) : Prop := ∀ c ∈ s, escapeChar c = [c]

instance (s : List Char) : Decidable (Unescaped s) :=
  decidable_of_iff (s.all fun c => escapeChar c == [c]) (by simp [Unescaped])

theorem Unescaped.stringChars {text : String} (unescaped : Unescaped text.toList) :
    stringChars text = '"' :: (text.toList ++ ['"']) := by
  rw [Json.stringChars, List.flatMap_def, List.map_congr_left unescaped, ← List.flatMap_def,
    List.flatMap_singleton']

/-! ## Numbers -/

/-- A number ends where no digit, no point and no exponent follows. -/
def NumberEnds (rest : List Char) : Prop :=
  ∀ c ∈ rest.head?, c.isDigit = false ∧ c ≠ '.' ∧ c ≠ 'e' ∧ c ≠ 'E'

theorem numberEnds_nil : NumberEnds [] := nofun

theorem numberEnds_comma (s : List Char) : NumberEnds (',' :: s) := by
  rintro c ⟨⟩
  decide

theorem numberEnds_bracket (s : List Char) : NumberEnds (']' :: s) := by
  rintro c ⟨⟩
  decide

theorem numberEnds_brace (s : List Char) : NumberEnds ('\x7d' :: s) := by
  rintro c ⟨⟩
  decide

/-- A number in front of something that does not continue it is read as it is written. -/
def NumberLegible (n : JsonNumber) : Prop :=
  ∀ rest, NumberEnds rest → number? (numberChars n ++ rest) = some (n, rest)

/-- Digits are read up to something that is none. -/
theorem digits?_append {digits : List Char} (some? : digits ≠ [])
    (all : ∀ c ∈ digits, c.isDigit = true) (ends : NumberEnds rest) :
    digits? (digits ++ rest) = some (digits, rest) := by
  have stops : rest.takeWhile Char.isDigit = [] ∧ rest.dropWhile Char.isDigit = rest := by
    cases rest with
    | nil => exact ⟨rfl, rfl⟩
    | cons c rest =>
      have noDigit : ¬ c.isDigit = true := by
        rw [(ends c rfl).1]
        exact Bool.false_ne_true
      exact ⟨List.takeWhile_cons_of_neg noDigit, List.dropWhile_cons_of_neg noDigit⟩
  have front : frontDigits (digits ++ rest) = digits := by
    rw [frontDigits, List.takeWhile_append_of_pos all, stops.1, List.append_nil]
  rw [digits?, front, if_neg (by simpa using some?), List.dropWhile_append_of_pos all, stops.2]

/-- The first digit of a positive number is not zero. -/
theorem head_toDigits_ne {n : Nat} (positive : 0 < n) :
    (Nat.toDigits 10 n).head? ≠ some '0' := by
  induction n using Nat.strongRecOn with
  | _ n ih =>
    rw [Nat.toDigits_eq_if (by decide)]
    split
    · next small =>
      rw [List.head?_cons, ne_eq, Option.some_inj, Nat.digitChar_eq_zero]
      omega
    · next large =>
      have less : n / 10 < n := Nat.div_lt_self positive (by decide)
      rw [List.head?_append, Option.or_of_isSome (by simp)]
      exact ih (n / 10) less (by omega)

/-- A number without a sign, a fraction and an exponent is a natural one. -/
theorem number?_of_whole {digits : List Char} (unsigned : s.head? ≠ some '-')
    (whole : whole? s = some (digits, rest)) (ends : NumberEnds rest) :
    number? s = some (.natural (Nat.ofDigitChars 10 digits 0), rest) := by
  have fraction : fraction? rest = some ([], rest) := by
    rw [fraction?.eq_def]
    split
    · exact absurd rfl (ends '.' rfl).2.1
    · rfl
  have exponent : exponent? rest = some ([], rest) := by
    cases rest with
    | nil => rfl
    | cons c rest =>
      obtain ⟨-, -, notSmall, notLarge⟩ := ends c rfl
      rw [exponent?, if_neg (by simp [notSmall, notLarge])]
  rw [number?.eq_def]
  split
  next minus unsignedRest split =>
    split at split
    · exact absurd rfl unsigned
    · cases split
      simp only [whole, fraction, exponent, Option.bind_eq_bind, Option.bind_some]
      rfl

/-- **A natural number is read back.** -/
theorem numberLegible_natural (n : Nat) : NumberLegible (.natural n) := by
  intro rest ends
  have digits : ∀ c ∈ Nat.toDigits 10 n, c.isDigit = true := fun c mem =>
    Nat.isDigit_of_mem_toDigits (by decide) (by decide) mem
  have whole : whole? (Nat.toDigits 10 n ++ rest) = some (Nat.toDigits 10 n, rest) := by
    rw [whole?.eq_def]
    split
    · next zero =>
      -- the one number that begins with a zero is zero itself
      rcases Nat.eq_zero_or_pos n with rfl | positive
      · cases zero
        rfl
      · have head := head_toDigits_ne positive
        cases written : Nat.toDigits 10 n with
        | nil => exact absurd written Nat.toDigits_ne_nil
        | cons d ds =>
          rw [written] at zero head
          exact absurd (congrArg some (List.cons.inj zero).1) head
    · exact digits?_append Nat.toDigits_ne_nil digits ends
  have unsigned : (Nat.toDigits 10 n ++ rest).head? ≠ some '-' := by
    intro minus
    rw [List.head?_append, Option.or_of_isSome (by simp)] at minus
    exact absurd (digits '-' (List.mem_of_mem_head? minus)) (by decide)
  rw [numberChars, number?_of_whole unsigned whole ends, Nat.ofDigitChars_ten_toDigits]

/-! ## Values -/

/-- A value whose numbers are read as they are written. -/
inductive Legible : Json → Prop
  | null : Legible .null
  | bool (b : Bool) : Legible (.bool b)
  | number {n : JsonNumber} (reads : NumberLegible n) : Legible (.number n)
  | string (s : String) : Legible (.string s)
  | array {items : List Json} (each : ∀ item ∈ items, Legible item) : Legible (.array items)
  | object {members : List (String × Json)} (each : ∀ member ∈ members, Legible member.2) :
      Legible (.object members)

/-- The number of a natural number is legible. -/
theorem legible_nat (n : Nat) : Legible (nat n) := .number (numberLegible_natural n)

/-- What the first character of a value is not: a blank, which would be skipped, or
a bracket, which would be taken for an end. -/
def Begins (s : List Char) : Prop :=
  ∃ c more, s = c :: more ∧ isBlank c = false ∧ c ≠ ']' ∧ c ≠ '\x7d'

theorem Begins.append (begins : Begins s) (t : List Char) : Begins (s ++ t) := by
  obtain ⟨c, more, rfl, plain⟩ := begins
  exact ⟨c, more ++ t, rfl, plain⟩

theorem Begins.skipBlanks (begins : Begins s) : skipBlanks s = s := by
  obtain ⟨c, more, rfl, notBlank, -⟩ := begins
  exact List.dropWhile_cons_of_neg (by simp [notBlank])

theorem begins_digit {c : Char} (digit : c.isDigit = true) (s : List Char) : Begins (c :: s) := by
  refine ⟨c, s, rfl, ?_, ?_, ?_⟩
  · rw [Bool.eq_false_iff]
    intro blank
    simp only [isBlank, Bool.or_eq_true, decide_eq_true_eq] at blank
    rcases blank with ((rfl | rfl) | rfl) | rfl <;> cases digit
  · rintro rfl
    cases digit
  · rintro rfl
    cases digit

/-- A number begins with a sign or a digit. -/
theorem number?_begins {n : JsonNumber} (reads : number? s = some (n, rest)) :
    ∃ c more, s = c :: more ∧ (c = '-' ∨ c.isDigit = true) := by
  rw [number?.eq_def] at reads
  split at reads
  next minus unsigned split =>
    split at split
    · exact ⟨_, _, rfl, .inl rfl⟩
    · cases split
      obtain ⟨⟨whole, behind⟩, readsWhole, -⟩ := Option.bind_eq_some_iff.mp reads
      rw [whole?.eq_def] at readsWhole
      split at readsWhole
      · exact ⟨_, _, rfl, .inr rfl⟩
      · rw [digits?] at readsWhole
        split at readsWhole
        · cases readsWhole
        · next front =>
          cases s with
          | nil => exact absurd rfl front
          | cons c more =>
            refine ⟨c, more, rfl, .inr ?_⟩
            by_contra noDigit
            rw [frontDigits, List.takeWhile_cons_of_neg noDigit] at front
            exact front rfl

theorem begins_chars {value : Json} (legible : Legible value) : Begins (chars value) := by
  cases legible with
  | null => exact ⟨'n', _, rfl, by decide⟩
  | bool b =>
    cases b with
    | true => exact ⟨'t', _, rfl, by decide⟩
    | false => exact ⟨'f', _, rfl, by decide⟩
  | number reads =>
    have alone := reads [] numberEnds_nil
    rw [List.append_nil] at alone
    obtain ⟨c, more, begins, sign | digit⟩ := number?_begins alone
    · rw [chars, begins]
      exact ⟨c, more, rfl, by rw [sign]; decide⟩
    · rw [chars, begins]
      exact begins_digit digit more
  | string s => exact ⟨'"', _, rfl, by decide⟩
  | array each => exact ⟨'[', _, rfl, by decide⟩
  | object each => exact ⟨'\x7b', _, rfl, by decide⟩

theorem begins_itemsChars {item : Json} {items : List Json} (legible : Legible item) :
    Begins (itemsChars (item :: items)) := by
  cases items with
  | nil => exact begins_chars legible
  | cons next items => exact (begins_chars legible).append _

theorem begins_membersChars (member : String × Json) (members : List (String × Json)) :
    Begins (membersChars (member :: members)) := by
  obtain ⟨key, value⟩ := member
  cases members with
  | nil => exact ⟨'"', _, rfl, by decide⟩
  | cons next members => exact ⟨'"', _, rfl, by decide⟩

/-- The items of an array are written with commas between them. -/
theorem itemsChars_eq_intercalate (items : List Json) :
    itemsChars items = [','].intercalate (items.map chars) := by
  induction items with
  | nil => rfl
  | cons item items ih =>
    cases items with
    | nil => rw [itemsChars, List.map_singleton, List.intercalate_singleton]
    | cons next items =>
      rw [itemsChars, ih, List.map_cons, List.map_cons, List.map_cons, List.intercalate_cons_cons,
        List.append_assoc]
      rfl

/-! ### One step of a reader -/

theorem value?_number {n : JsonNumber} (reads : number? s = some (n, rest)) :
    value? (fuel + 1) s = some (.number n, rest) := by
  obtain ⟨c, more, rfl, first⟩ := number?_begins reads
  rw [value?.eq_def]
  simp only
  -- no other value begins with a sign or a digit
  split
  iterate 6
    · next same =>
      rw [(List.cons.inj same).1] at first
      exact absurd first (by decide)
  · rw [reads]
    rfl

theorem value?_array {items : List Json} (begins : Begins s)
    (reads : items? fuel s = some (items, rest)) :
    value? (fuel + 1) ('[' :: s) = some (.array items, rest) := by
  rw [value?.eq_def]
  simp only [begins.skipBlanks]
  split
  · obtain ⟨c, more, same, -, notBracket, -⟩ := begins
    exact absurd (List.cons.inj same).1.symm notBracket
  · rw [reads]
    rfl

theorem value?_object_of_members {members : List (String × Json)} (begins : Begins s)
    (reads : members? fuel s = some (members, rest)) :
    value? (fuel + 1) ('\x7b' :: s) = some (.object members, rest) := by
  rw [value?.eq_def]
  simp only [begins.skipBlanks]
  split
  · obtain ⟨c, more, same, -, -, notBrace⟩ := begins
    exact absurd (List.cons.inj same).1.symm notBrace
  · rw [reads]
    rfl

/-- Behind an item stands the end, or a comma and more items. -/
theorem items?_last {item : Json} (reads : value? fuel s = some (item, ']' :: rest)) :
    items? (fuel + 1) s = some ([item], rest) := by
  rw [items?.eq_def]
  simp only [reads]
  rfl

theorem items?_more {item : Json} {items : List Json} {behind : List Char}
    (reads : value? fuel s = some (item, ',' :: behind)) (begins : Begins behind)
    (more : items? fuel behind = some (items, rest)) :
    items? (fuel + 1) s = some (item :: items, rest) := by
  have comma : skipBlanks (',' :: behind) = ',' :: behind := rfl
  rw [items?.eq_def]
  simp only [reads, comma, begins.skipBlanks, more]
  rfl

/-- A member is a key, a colon and a value; behind it stands the end, or a comma
and more members. -/
theorem members?_last {key : String} {value : Json} {behind : List Char}
    (readsKey : stringBody? none [] s = some (key, ':' :: behind)) (begins : Begins behind)
    (reads : value? fuel behind = some (value, '\x7d' :: rest)) :
    members? (fuel + 1) ('"' :: s) = some ([(key, value)], rest) := by
  have colon : skipBlanks (':' :: behind) = ':' :: behind := rfl
  rw [members?.eq_def]
  simp only [readsKey, colon, begins.skipBlanks, reads]
  rfl

theorem members?_more {key : String} {value : Json} {members : List (String × Json)}
    {behind after : List Char}
    (readsKey : stringBody? none [] s = some (key, ':' :: behind)) (begins : Begins behind)
    (reads : value? fuel behind = some (value, ',' :: after)) (beginsMore : Begins after)
    (more : members? fuel after = some (members, rest)) :
    members? (fuel + 1) ('"' :: s) = some ((key, value) :: members, rest) := by
  have colon : skipBlanks (':' :: behind) = ':' :: behind := rfl
  have comma : skipBlanks (',' :: after) = ',' :: after := rfl
  rw [members?.eq_def]
  simp only [readsKey, colon, begins.skipBlanks, reads, comma, beginsMore.skipBlanks, more]
  rfl

/-! ### Reading back -/

/-- A value is read back in front of everything that ends a number. -/
def ReadBack (value : Json) : Prop :=
  ∀ fuel rest, (chars value).length ≤ fuel → NumberEnds rest →
    value? fuel (chars value ++ rest) = some (value, rest)

/-- Items are read back if each of them is. -/
theorem items?_itemsChars {item : Json} {items : List Json}
    (legible : ∀ i ∈ item :: items, Legible i) (each : ∀ i ∈ item :: items, ReadBack i)
    {fuel : Nat} (steps : (itemsChars (item :: items)).length < fuel) (rest : List Char) :
    items? fuel (itemsChars (item :: items) ++ ']' :: rest) = some (item :: items, rest) := by
  induction items generalizing item fuel with
  | nil =>
    obtain ⟨fuel, rfl⟩ := Nat.exists_eq_succ_of_ne_zero (Nat.ne_zero_of_lt steps)
    exact items?_last (each item List.mem_cons_self fuel _ (Nat.le_of_lt_succ steps)
      (numberEnds_bracket rest))
  | cons next items ih =>
    obtain ⟨fuel, rfl⟩ := Nat.exists_eq_succ_of_ne_zero (Nat.ne_zero_of_lt steps)
    rw [itemsChars, List.length_append, List.length_cons] at steps
    rw [List.forall_mem_cons] at legible each
    have first := each.1 fuel (',' :: (itemsChars (next :: items) ++ ']' :: rest)) (by omega)
      (numberEnds_comma _)
    have more := ih legible.2 each.2 (show (itemsChars (next :: items)).length < fuel by omega)
    rw [itemsChars, List.append_assoc, List.cons_append]
    refine items?_more first ?_ more
    exact (begins_itemsChars (legible.2 next List.mem_cons_self)).append _

/-- Members are read back if each of their values is. -/
theorem members?_membersChars {member : String × Json} {members : List (String × Json)}
    (legible : ∀ m ∈ member :: members, Legible m.2) (each : ∀ m ∈ member :: members, ReadBack m.2)
    {fuel : Nat} (steps : (membersChars (member :: members)).length < fuel) (rest : List Char) :
    members? fuel (membersChars (member :: members) ++ '\x7d' :: rest)
      = some (member :: members, rest) := by
  -- what is written of a member, with its key ready to be read
  have written (key : String) (behind : List Char) :
      stringChars key ++ ':' :: behind
        = '"' :: (key.toList.flatMap escapeChar ++ '"' :: ':' :: behind) := by
    rw [stringChars, List.cons_append, List.append_assoc]
    rfl
  induction members generalizing member fuel with
  | nil =>
    obtain ⟨key, value⟩ := member
    obtain ⟨fuel, rfl⟩ := Nat.exists_eq_succ_of_ne_zero (Nat.ne_zero_of_lt steps)
    rw [membersChars, List.length_append, List.length_cons] at steps
    have back : ReadBack value := each (key, value) List.mem_cons_self
    have reads := back fuel ('\x7d' :: rest) (by omega) (numberEnds_brace rest)
    have begins := (begins_chars (legible (key, value) List.mem_cons_self)).append ('\x7d' :: rest)
    rw [membersChars, List.append_assoc, List.cons_append, written]
    exact members?_last (stringBody?_text key _) begins reads
  | cons next members ih =>
    obtain ⟨key, value⟩ := member
    obtain ⟨fuel, rfl⟩ := Nat.exists_eq_succ_of_ne_zero (Nat.ne_zero_of_lt steps)
    simp only [membersChars, List.length_append, List.length_cons] at steps
    rw [List.forall_mem_cons] at legible each
    have back : ReadBack value := each.1
    have reads := back fuel (',' :: (membersChars (next :: members) ++ '\x7d' :: rest)) (by omega)
      (numberEnds_comma _)
    have more := ih legible.2 each.2
      (show (membersChars (next :: members)).length < fuel by omega)
    have begins := (begins_chars legible.1).append
      (',' :: (membersChars (next :: members) ++ '\x7d' :: rest))
    rw [membersChars, List.append_assoc, List.cons_append, List.append_assoc, List.cons_append,
      written]
    exact members?_more (stringBody?_text key _) begins reads
      ((begins_membersChars next members).append _) more

/-- A value has a character, so there is a step to read it. -/
theorem readBack_of_step {value : Json} (legible : Legible value)
    (step : ∀ fuel rest, (chars value).length ≤ fuel + 1 → NumberEnds rest →
      value? (fuel + 1) (chars value ++ rest) = some (value, rest)) : ReadBack value := by
  intro fuel rest steps ends
  obtain ⟨c, more, begins, -⟩ := begins_chars legible
  cases fuel with
  | zero =>
    rw [begins] at steps
    exact absurd steps (Nat.not_succ_le_zero _)
  | succ fuel => exact step fuel rest steps ends

/-- **A legible value is read back.** -/
theorem readBack {value : Json} (legible : Legible value) : ReadBack value := by
  induction legible with
  | null => exact readBack_of_step .null fun fuel rest _ _ => rfl
  | bool b => cases b <;> exact readBack_of_step (.bool _) fun fuel rest _ _ => rfl
  | @number n reads =>
    apply readBack_of_step (.number reads)
    intro fuel rest _ ends
    exact value?_number (reads rest ends)
  | string s =>
    apply readBack_of_step (.string s)
    intro fuel rest _ _
    rw [chars, stringChars, List.cons_append, List.append_assoc]
    show (stringBody? none [] (s.toList.flatMap escapeChar ++ '"' :: rest)).map _ = _
    rw [stringBody?_text]
    rfl
  | @array items each ih =>
    apply readBack_of_step (.array each)
    intro fuel rest steps _
    rw [chars, List.cons_append, List.append_assoc]
    cases items with
    | nil => rfl
    | cons item items =>
      rw [chars, List.length_cons, List.length_append, List.length_singleton] at steps
      refine value?_array ?_ (items?_itemsChars each ih (by omega) rest)
      exact (begins_itemsChars (each item List.mem_cons_self)).append _
  | @object members each ih =>
    apply readBack_of_step (.object each)
    intro fuel rest steps _
    rw [chars, List.cons_append, List.append_assoc]
    cases members with
    | nil => rfl
    | cons member members =>
      rw [chars, List.length_cons, List.length_append, List.length_singleton] at steps
      refine value?_object_of_members ?_ (members?_membersChars each ih (by omega) rest)
      exact (begins_membersChars member members).append _

/-- **The compact text of a value is one JSON text, and it is read as the value.** -/
theorem parse?_text {value : Json} (legible : Legible value) :
    parse? value.text = some value := by
  have reads := readBack legible ((chars value).length + 1) [] (Nat.le_succ _) numberEnds_nil
  rw [List.append_nil] at reads
  rw [parse?, text, String.toList_ofList, (begins_chars legible).skipBlanks, reads]
  rfl

/-- Legible values with the same text are the same value. -/
theorem eq_of_text_eq {value value' : Json} (legible : Legible value) (legible' : Legible value')
    (same : value.text = value'.text) : value = value' := by
  have reads := parse?_text legible
  rw [same, parse?_text legible'] at reads
  exact (Option.some.inj reads).symm

end Json

end HostBoundary
