import HostBoundary.Proofs.FlatScan
import HostBoundary.Proofs.Writing

/-!
# Reading a flat object back

The scans find one value of a flat object and cut it short.  Nothing of that is
the fault of the text: a reader that undoes the five escapes gets back every
pair, whatever the texts are (`Flat.parse?_text`).  So the text of an object is
a name for its pairs, and no two lists of pairs share one.

## Where the text is JSON

The five escapes are not those of JSON, which asks for an escape of *every*
control character.  A flat object is therefore JSON exactly when line feeds,
carriage returns and tabs are the only control characters of its texts
(`Flat.Printable`), and then a JSON reader gets the same pairs.  The other
direction is why both readers are looked at string by string: the first bare
control character ends the reading, wherever it stands.
-/

namespace HostBoundary

namespace Flat

variable {fuel : Nat}

/-! ## The reader of flat objects -/

theorem stringBody?_escape {e c : Char} (stands : unescape? e = some c) (read rest : List Char) :
    stringBody? read ('\\' :: e :: rest) = stringBody? (c :: read) rest := by
  rw [stringBody?.eq_def]
  simp [stands]

/-- A character is read back from what is written for it. -/
theorem stringBody?_escapeChar (c : Char) (read rest : List Char) :
    stringBody? read (escapeChar c ++ rest) = stringBody? (c :: read) rest := by
  unfold escapeChar
  iterate 5
    split
    · next same =>
      subst same
      exact stringBody?_escape rfl read rest
  next notQuote notBackslash _ _ _ =>
  rw [List.singleton_append, stringBody?.eq_def]
  simp [notQuote, notBackslash]

/-- The closing quotation mark is the first that no backslash took. -/
theorem stringBody?_escapeChars (read s rest : List Char) :
    stringBody? read (escapeChars s ++ '"' :: rest)
      = some (String.ofList (read.reverse ++ s), rest) := by
  induction s generalizing read with
  | nil =>
    rw [List.append_nil, stringBody?.eq_def]
    rfl
  | cons c s ih =>
    rw [escapeChars_cons, List.append_assoc, stringBody?_escapeChar, ih, List.reverse_cons,
      List.append_assoc]
    rfl

/-- A text between quotation marks, with something behind it. -/
theorem stringChars_append (text : String) (rest : List Char) :
    stringChars text ++ rest = '"' :: (escapeChars text.toList ++ '"' :: rest) := by
  rw [stringChars, List.cons_append, List.append_assoc]
  rfl

theorem string?_stringChars (text : String) (rest : List Char) :
    string? (stringChars text ++ rest) = some (text, rest) := by
  rw [stringChars_append, string?, stringBody?_escapeChars, List.reverse_nil, List.nil_append,
    String.ofList_toList]

theorem pair?_pairChars (pair : String × String) (rest : List Char) :
    pair? (pairChars pair ++ rest) = some (pair, rest) := by
  rw [pairChars, List.append_assoc, List.cons_append, pair?, string?_stringChars]
  simp only [string?_stringChars]
  rfl

/-- Pairs are read back up to the brace that closes them. -/
theorem pairs?_closing (pair : String × String) (rest : List (String × String))
    (steps : rest.length < fuel) :
    pairs? fuel (pairChars pair ++ closing rest) = some (pair :: rest, []) := by
  induction rest generalizing pair fuel with
  | nil =>
    obtain ⟨fuel, rfl⟩ := Nat.exists_eq_succ_of_ne_zero (Nat.ne_zero_of_lt steps)
    rw [pairs?, pair?_pairChars]
    rfl
  | cons next rest ih =>
    obtain ⟨fuel, rfl⟩ := Nat.exists_eq_succ_of_ne_zero (Nat.ne_zero_of_lt steps)
    have more := ih next (Nat.lt_of_succ_lt_succ steps)
    rw [pairs?, pair?_pairChars, closing]
    simp only [more]
    rfl

/-- Each pair takes more than one character. -/
theorem length_le_closing (pairs : List (String × String)) :
    pairs.length < (closing pairs).length := by
  induction pairs with
  | nil => decide
  | cons pair rest ih =>
    rw [closing, List.length_cons, List.length_cons, List.length_append]
    omega

/-- **A flat object is read back**, pair by pair, whatever its texts are. -/
theorem parse?_text (pairs : List (String × String)) : parse? (text pairs) = some pairs := by
  cases pairs with
  | nil => rfl
  | cons pair rest =>
    obtain ⟨more, begins⟩ : ∃ more, pairChars pair ++ closing rest = '"' :: more := by
      rw [pairChars, List.append_assoc, stringChars_append]
      exact ⟨_, rfl⟩
    have steps : rest.length < (pairChars pair ++ closing rest).length := by
      rw [List.length_append]
      have := length_le_closing rest
      omega
    have reads := pairs?_closing pair rest steps
    rw [parse?, text, String.toList_ofList, pairsChars_append_closing]
    rw [begins] at reads ⊢
    split
    · next empty => exact absurd (List.cons.inj (List.cons.inj empty).2).1 (by decide)
    · next chars _ same =>
      obtain rfl : '"' :: more = chars := (List.cons.inj same).2
      rw [reads]
    · next other => exact absurd rfl (other _)

/-! ## The reader of JSON -/

/-- A character that is no control character, or one of the three that are
escaped. -/
def PrintableChar (c : Char) : Prop := c.toNat < 32 → c = '\n' ∨ c = '\r' ∨ c = '\t'

/-- A text without control characters, but for line feeds, carriage returns and
tabs. -/
def Printable (text : String) : Prop := ∀ c ∈ text.toList, PrintableChar c

instance (c : Char) : Decidable (PrintableChar c) :=
  inferInstanceAs (Decidable (_ → _))

instance (text : String) : Decidable (Printable text) :=
  decidable_of_iff (text.toList.all fun c => decide (PrintableChar c)) (by simp [Printable])

/-- Both texts of a pair are printable. -/
def PrintablePair (pair : String × String) : Prop := Printable pair.1 ∧ Printable pair.2

instance (pair : String × String) : Decidable (PrintablePair pair) :=
  inferInstanceAs (Decidable (_ ∧ _))

/-- JSON has each of the five escapes, and reads the same character from it. -/
theorem json_stringBody?_escapeChar {c : Char} (printable : PrintableChar c)
    (read rest : List Char) :
    Json.stringBody? none read (escapeChar c ++ rest) = Json.stringBody? none (c :: read) rest := by
  unfold escapeChar
  iterate 5
    split
    · next same =>
      subst same
      exact Json.stringBody?_letter (by decide) rfl read rest
  next notQuote notBackslash notLine notReturn notTab =>
  have notControl : ¬ c.toNat < 32 := by
    intro control
    rcases printable control with line | carriage | tab
    · exact notLine line
    · exact notReturn carriage
    · exact notTab tab
  exact Json.stringBody?_plain notBackslash notQuote notControl read rest

/-- Every other control character is bare, and is refused. -/
theorem json_stringBody?_control {c : Char} (control : ¬ PrintableChar c)
    (read rest : List Char) : Json.stringBody? none read (escapeChar c ++ rest) = none := by
  have low : c.toNat < 32 := by
    by_contra high
    exact control fun low => absurd low high
  have notQuote : c ≠ '"' := by
    rintro rfl
    exact absurd low (by decide)
  have notBackslash : c ≠ '\\' := by
    rintro rfl
    exact absurd low (by decide)
  have bare : escapeChar c = [c] := by
    rw [escapeChar, if_neg notQuote, if_neg notBackslash,
      if_neg fun line => control fun _ => .inl line,
      if_neg fun carriage => control fun _ => .inr (.inl carriage),
      if_neg fun tab => control fun _ => .inr (.inr tab)]
  rw [bare, List.singleton_append, Json.stringBody?.eq_def]
  simp [notQuote, notBackslash, low]

theorem json_stringBody?_printable {s : List Char} (printable : ∀ c ∈ s, PrintableChar c)
    (read rest : List Char) :
    Json.stringBody? none read (escapeChars s ++ '"' :: rest)
      = some (String.ofList (read.reverse ++ s), rest) := by
  induction s generalizing read with
  | nil =>
    rw [List.append_nil]
    exact Json.stringBody?_quote read rest
  | cons c s ih =>
    rw [List.forall_mem_cons] at printable
    rw [escapeChars_cons, List.append_assoc, json_stringBody?_escapeChar printable.1,
      ih printable.2, List.reverse_cons, List.append_assoc]
    rfl

theorem json_stringBody?_refused {s : List Char} (control : ¬ ∀ c ∈ s, PrintableChar c)
    (read rest : List Char) :
    Json.stringBody? none read (escapeChars s ++ '"' :: rest) = none := by
  induction s generalizing read with
  | nil => exact absurd (List.forall_mem_nil _) control
  | cons c s ih =>
    rw [List.forall_mem_cons] at control
    rw [escapeChars_cons, List.append_assoc]
    by_cases printable : PrintableChar c
    · rw [json_stringBody?_escapeChar printable]
      exact ih (fun rest => control ⟨printable, rest⟩) _
    · exact json_stringBody?_control printable read _

/-- **A string of a flat object is a JSON string exactly when it is printable.** -/
theorem json_stringBody?_text (text : String) (rest : List Char) :
    Json.stringBody? none [] (escapeChars text.toList ++ '"' :: rest)
      = if Printable text then some (text, rest) else none := by
  split
  · next printable =>
    rw [json_stringBody?_printable printable, List.reverse_nil, List.nil_append,
      String.ofList_toList]
  · next control => exact json_stringBody?_refused control [] rest

theorem json_value?_text (text : String) (rest : List Char) :
    Json.value? (fuel + 1) (stringChars text ++ rest)
      = if Printable text then some (.string text, rest) else none := by
  rw [stringChars_append, Json.value?.eq_def]
  simp only [json_stringBody?_text]
  split <;> rfl

/-- The member of a pair. -/
def member (pair : String × String) : String × Json := (pair.1, .string pair.2)

theorem pairChars_append (pair : String × String) (rest : List Char) :
    pairChars pair ++ rest
      = '"' :: (escapeChars pair.1.toList ++ '"' :: ':' :: (stringChars pair.2 ++ rest)) := by
  rw [pairChars, List.append_assoc, stringChars_append]
  rfl

/-- A string begins no blank. -/
theorem skipBlanks_stringChars (text : String) (rest : List Char) :
    Json.skipBlanks (stringChars text ++ rest) = stringChars text ++ rest := by
  rw [stringChars_append]
  exact List.dropWhile_cons_of_neg (by decide)

/-- One pair is a member when it is printable, and behind it stands the end, or a
comma and more pairs. -/
theorem json_members?_pair (pair : String × String) (behind : List Char) :
    Json.members? (fuel + 2) (pairChars pair ++ behind)
      = if PrintablePair pair then
          match Json.skipBlanks behind with
          | ',' :: rest =>
            (Json.members? (fuel + 1) (Json.skipBlanks rest)).map
              fun found => (member pair :: found.1, found.2)
          | '}' :: rest => some ([member pair], rest)
          | _ => none
        else none := by
  have colon : Json.skipBlanks (':' :: (stringChars pair.2 ++ behind))
      = ':' :: (stringChars pair.2 ++ behind) := rfl
  rw [pairChars_append, Json.members?.eq_def]
  simp only [json_stringBody?_text]
  by_cases key : Printable pair.1
  · simp only [if_pos key, colon, skipBlanks_stringChars, json_value?_text]
    by_cases value : Printable pair.2
    · rw [if_pos value, if_pos ⟨key, value⟩]
      rfl
    · rw [if_neg value, if_neg fun both => value both.2]
  · rw [if_neg key, if_neg fun both => key both.1]

/-- **The pairs are members of a JSON object exactly when all of them are
printable.** -/
theorem json_members?_closing (pair : String × String) (rest : List (String × String))
    (steps : rest.length + 1 < fuel) :
    Json.members? fuel (pairChars pair ++ closing rest)
      = if (pair :: rest).all (decide <| PrintablePair ·) then
          some ((pair :: rest).map member, [])
        else none := by
  induction rest generalizing pair fuel with
  | nil =>
    obtain ⟨fuel, rfl⟩ : ∃ less, fuel = less + 2 := ⟨fuel - 2, by omega⟩
    rw [json_members?_pair, List.all_cons, List.all_nil, Bool.and_true]
    by_cases printable : PrintablePair pair
    · rw [if_pos printable, if_pos (decide_eq_true printable)]
      rfl
    · rw [if_neg printable, if_neg (by rwa [decide_eq_true_eq])]
  | cons next rest ih =>
    obtain ⟨fuel, rfl⟩ : ∃ less, fuel = less + 2 := ⟨fuel - 2, by omega⟩
    have comma : Json.skipBlanks (closing (next :: rest))
        = ',' :: (pairChars next ++ closing rest) := rfl
    have begins : Json.skipBlanks (pairChars next ++ closing rest)
        = pairChars next ++ closing rest := by
      rw [pairChars, List.append_assoc, skipBlanks_stringChars]
    have more := ih next (Nat.lt_of_succ_lt_succ steps)
    rw [json_members?_pair, List.all_cons, comma]
    simp only [begins, more]
    by_cases printable : PrintablePair pair
    · rw [if_pos printable, decide_eq_true printable, Bool.true_and]
      split <;> rfl
    · rw [if_neg printable, decide_eq_false printable]
      rfl

/-- An object that is not empty begins with a key. -/
theorem json_value?_object (s : List Char) :
    Json.value? (fuel + 1) ('{' :: '"' :: s)
      = (Json.members? fuel ('"' :: s)).map fun found => (.object found.1, found.2) := by
  rw [Json.value?.eq_def]
  rfl

/-- What a JSON reader makes of a flat object: the members of its pairs, or
nothing. -/
theorem json_parse?_text (pairs : List (String × String)) :
    Json.parse? (text pairs)
      = if pairs.all (decide <| PrintablePair ·) then some (.object (pairs.map member))
        else none := by
  cases pairs with
  | nil => rfl
  | cons pair rest =>
    have size := length_le_closing rest
    have steps : rest.length + 1 < ('{' :: (pairChars pair ++ closing rest)).length := by
      rw [List.length_cons, List.length_append]
      omega
    have reads := json_members?_closing pair rest steps
    have brace : Json.skipBlanks ('{' :: (pairChars pair ++ closing rest))
        = '{' :: (pairChars pair ++ closing rest) := rfl
    rw [Json.parse?, text, String.toList_ofList, pairsChars_append_closing, brace]
    rw [pairChars_append] at reads ⊢
    rw [json_value?_object, reads]
    by_cases printable : (pair :: rest).all (decide <| PrintablePair ·) = true
    · rw [if_pos printable, if_pos printable]
      rfl
    · rw [if_neg printable, if_neg printable]
      rfl

/-- **The text of a flat object loses nothing.**  Reading it gives back the pairs
in their order, whatever their texts are, so two lists of pairs never share a
text.  It is JSON exactly when no text has a control character other than a line
feed, a carriage return and a tab. -/
theorem text_lossless :
    (∀ pairs, parse? (text pairs) = some pairs) ∧ Function.Injective text ∧
    ∀ pairs, (∃ value, Json.parse? (text pairs) = some value) ↔
      ∀ pair ∈ pairs, ∀ c ∈ pair.1.toList ++ pair.2.toList,
        c.toNat < 0x20 → c = '\n' ∨ c = '\r' ∨ c = '\t' := by
  refine ⟨parse?_text, ?_, ?_⟩
  · intro pairs pairs' same
    have reads := parse?_text pairs
    rw [same, parse?_text] at reads
    exact (Option.some.inj reads).symm
  · intro pairs
    have printable : pairs.all (decide <| PrintablePair ·) ↔
        ∀ pair ∈ pairs, ∀ c ∈ pair.1.toList ++ pair.2.toList,
          c.toNat < 0x20 → c = '\n' ∨ c = '\r' ∨ c = '\t' := by
      rw [List.all_eq_true]
      refine forall₂_congr fun pair _ => ?_
      rw [decide_eq_true_eq, List.forall_mem_append]
      exact Iff.rfl
    rw [json_parse?_text, ← printable]
    split
    · next all => exact iff_of_true ⟨_, rfl⟩ all
    · next control => exact iff_of_false nofun control

/-- A form feed is read back, but it makes the text no JSON. -/
example : parse? (text [("a", "\x0c")]) = some [("a", "\x0c")] ∧
    Json.parse? (text [("a", "\x0c")]) = none := by
  decide +kernel

end Flat

end HostBoundary
