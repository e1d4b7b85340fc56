import Mathlib.Data.List.TakeWhile
import HostBoundary.Json.Reader

/-!
# What a reader consumes

Every reader takes characters from the front of what is left and leaves a suffix
of it.  An object ends at a closing brace, so a text that is one object ends
there too, up to blanks.
-/

namespace HostBoundary

namespace Json

variable {s rest : List Char} {fuel : Nat}

theorem skipBlanks_suffix (s : List Char) : skipBlanks s <:+ s := List.dropWhile_suffix _

/-! ## Strings and numbers -/

theorem stringBody?_suffix {high : Option Nat} {read : List Char} {text : String}
    (reads : stringBody? high read s = some (text, rest)) : rest <:+ s := by
  fun_induction stringBody? high read s with
  | case1 | case4 | case6 | case7 | case8 | case10 => cases reads
  | case2 _ _ d₁ d₂ d₃ d₄ rest _ _ ih | case3 _ _ d₁ d₂ d₃ d₄ rest _ _ ih =>
    exact (ih reads).trans ⟨['\\', 'u', d₁, d₂, d₃, d₄], rfl⟩
  | case5 _ e rest _ _ _ ih => exact (ih reads).trans ⟨['\\', e], rfl⟩
  | case9 =>
    cases reads
    exact List.suffix_cons _ _
  | case11 _ _ c rest _ _ _ _ ih => exact (ih reads).trans (List.suffix_cons c rest)

/-- A quotation mark ends a string. -/
theorem stringBody?_quote (read s : List Char) :
    stringBody? none read ('"' :: s) = some (String.ofList read.reverse, s) := by
  rw [stringBody?.eq_def]
  rfl

/-- A character that needs no escape is read as it is. -/
theorem stringBody?_plain {c : Char} (notBackslash : c ≠ '\\') (notQuote : c ≠ '"')
    (notControl : ¬ c.toNat < 32) (read s : List Char) :
    stringBody? none read (c :: s) = stringBody? none (c :: read) s := by
  rw [stringBody?.eq_def]
  simp [notBackslash, notQuote, notControl]

theorem digits?_suffix {digits : List Char} (reads : digits? s = some (digits, rest)) :
    rest <:+ s := by
  rw [digits?] at reads
  split at reads
  · cases reads
  · cases reads
    exact List.dropWhile_suffix _

theorem whole?_suffix {digits : List Char} (reads : whole? s = some (digits, rest)) :
    rest <:+ s := by
  rw [whole?.eq_def] at reads
  split at reads
  · cases reads
    exact List.suffix_cons _ _
  · exact digits?_suffix reads

theorem fraction?_suffix {digits : List Char} (reads : fraction? s = some (digits, rest)) :
    rest <:+ s := by
  rw [fraction?.eq_def] at reads
  split at reads
  · obtain ⟨⟨digits, behind⟩, found, same⟩ := Option.map_eq_some_iff.mp reads
    cases same
    exact (digits?_suffix found).trans (List.suffix_cons _ _)
  · cases reads
    exact List.suffix_refl _

theorem sign_suffix (s : List Char) : (sign s).2 <:+ s := by
  rw [sign.eq_def]
  split
  · exact List.suffix_cons _ _
  · exact List.suffix_cons _ _
  · exact List.suffix_refl _

theorem exponent?_suffix {digits : List Char} (reads : exponent? s = some (digits, rest)) :
    rest <:+ s := by
  rw [exponent?.eq_def] at reads
  split at reads
  · next e behind =>
    split at reads
    · obtain ⟨⟨digits, behind⟩, found, same⟩ := Option.map_eq_some_iff.mp reads
      cases same
      exact ((digits?_suffix found).trans (sign_suffix _)).trans (List.suffix_cons _ _)
    · cases reads
      exact List.suffix_refl _
  · cases reads
    exact List.suffix_refl _

theorem number?_suffix {n : JsonNumber} (reads : number? s = some (n, rest)) : rest <:+ s := by
  rw [number?.eq_def] at reads
  obtain ⟨⟨whole, s₁⟩, readsWhole, reads⟩ := Option.bind_eq_some_iff.mp reads
  obtain ⟨⟨fraction, s₂⟩, readsFraction, reads⟩ := Option.bind_eq_some_iff.mp reads
  obtain ⟨⟨exponent, s₃⟩, readsExponent, reads⟩ := Option.bind_eq_some_iff.mp reads
  have ends {p : Prop} [Decidable p] {a b : JsonNumber}
      (reads : (if p then some (a, s₃) else some (b, s₃)) = some (n, rest)) : s₃ = rest := by
    split at reads <;> cases reads <;> rfl
  have same := ends reads
  have unsigned := whole?_suffix readsWhole
  have whole : s₁ <:+ s := by
    split at unsigned
    · exact unsigned.trans (List.suffix_cons _ _)
    · exact unsigned
  rw [← same]
  exact ((exponent?_suffix readsExponent).trans (fraction?_suffix readsFraction)).trans whole

/-! ## Values -/

mutual

/-- A value leaves a suffix. -/
theorem value?_suffix : (fuel : Nat) → {s rest : List Char} → {value : Json} →
    value? fuel s = some (value, rest) → rest <:+ s
  | 0, _, _, _, reads => by simp [value?] at reads
  | fuel + 1, s, rest, value, reads => by
    rw [value?.eq_def] at reads
    simp only at reads
    split at reads
    · cases reads
      exact ⟨['n', 'u', 'l', 'l'], rfl⟩
    · cases reads
      exact ⟨['t', 'r', 'u', 'e'], rfl⟩
    · cases reads
      exact ⟨['f', 'a', 'l', 's', 'e'], rfl⟩
    · obtain ⟨⟨text, behind⟩, found, same⟩ := Option.map_eq_some_iff.mp reads
      cases same
      exact (stringBody?_suffix found).trans (List.suffix_cons _ _)
    · next inner =>
      have blanks := (skipBlanks_suffix inner).trans (List.suffix_cons '[' inner)
      split at reads
      · next closes =>
        cases reads
        rw [closes] at blanks
        exact (List.suffix_cons _ _).trans blanks
      · obtain ⟨⟨items, behind⟩, found, same⟩ := Option.map_eq_some_iff.mp reads
        cases same
        exact (items?_suffix fuel found).trans blanks
    · next inner =>
      have blanks := (skipBlanks_suffix inner).trans (List.suffix_cons '\x7b' inner)
      split at reads
      · next closes =>
        cases reads
        rw [closes] at blanks
        exact (List.suffix_cons _ _).trans blanks
      · obtain ⟨⟨members, behind⟩, found, same⟩ := Option.map_eq_some_iff.mp reads
        cases same
        exact ((List.suffix_cons _ _).trans (members?_suffix fuel found)).trans blanks
    · obtain ⟨⟨n, behind⟩, found, same⟩ := Option.map_eq_some_iff.mp reads
      cases same
      exact number?_suffix found

/-- The items of an array leave a suffix. -/
theorem items?_suffix : (fuel : Nat) → {s rest : List Char} → {items : List Json} →
    items? fuel s = some (items, rest) → rest <:+ s
  | 0, _, _, _, reads => by simp [items?] at reads
  | fuel + 1, s, rest, items, reads => by
    rw [items?.eq_def] at reads
    simp only at reads
    split at reads
    · cases reads
    · next item behind found =>
      have blanks := (skipBlanks_suffix behind).trans (value?_suffix fuel found)
      split at reads
      · next more begins =>
        obtain ⟨⟨items, behind⟩, found, same⟩ := Option.map_eq_some_iff.mp reads
        cases same
        rw [begins] at blanks
        exact (((items?_suffix fuel found).trans (skipBlanks_suffix _)).trans
          (List.suffix_cons _ _)).trans blanks
      · next closes =>
        cases reads
        rw [closes] at blanks
        exact (List.suffix_cons _ _).trans blanks
      · cases reads

/-- The members of an object end at a closing brace. -/
theorem members?_suffix : (fuel : Nat) → {s rest : List Char} → {members : List (String × Json)} →
    members? fuel s = some (members, rest) → '}' :: rest <:+ s
  | 0, _, _, _, reads => by simp [members?] at reads
  | fuel + 1, s, rest, members, reads => by
    rw [members?.eq_def] at reads
    simp only at reads
    split at reads
    · next inner =>
      split at reads
      · cases reads
      · next key behindKey readsKey =>
        have afterKey := (stringBody?_suffix readsKey).trans (List.suffix_cons '"' inner)
        split at reads
        · next behindColon colon =>
          have afterColon := (skipBlanks_suffix behindKey).trans afterKey
          rw [colon] at afterColon
          split at reads
          · cases reads
          · next value behindValue readsValue =>
            have afterValue := (((skipBlanks_suffix behindValue).trans
              (value?_suffix fuel readsValue)).trans (skipBlanks_suffix behindColon)).trans
              ((List.suffix_cons _ _).trans afterColon)
            split at reads
            · next behindComma comma =>
              obtain ⟨⟨members, behind⟩, found, same⟩ := Option.map_eq_some_iff.mp reads
              cases same
              rw [comma] at afterValue
              exact (((members?_suffix fuel found).trans (skipBlanks_suffix _)).trans
                (List.suffix_cons _ _)).trans afterValue
            · next brace =>
              cases reads
              rw [brace] at afterValue
              exact afterValue
            · cases reads
        · cases reads
    · cases reads

end

/-! ## What a value begins with -/

/-- Only `null` begins with an `n`. -/
theorem eq_null_of_value? {value : Json} (reads : value? fuel ('n' :: s) = some (value, rest)) :
    value = .null := by
  cases fuel with
  | zero => simp [value?] at reads
  | succ fuel =>
    rw [value?.eq_def] at reads
    simp only at reads
    -- no other word begins with an `n`, and no number does
    split at reads
    · cases reads
      rfl
    iterate 5
      · next impossible => simp at impossible
    · have nothing : number? ('n' :: s) = none := rfl
      rw [nothing] at reads
      cases reads

/-- Only the empty string begins with two quotation marks. -/
theorem eq_empty_of_value? {value : Json}
    (reads : value? fuel ('"' :: '"' :: s) = some (value, rest)) : value = .string "" := by
  cases fuel with
  | zero => simp [value?] at reads
  | succ fuel =>
    have nothing : stringBody? none [] ('"' :: s) = some ("", s) := stringBody?_quote [] s
    rw [value?.eq_def] at reads
    simp only [nothing] at reads
    cases reads
    rfl

/-- The parts of a first member: its key, its colon and its value. -/
theorem members?_eq_some {key : String} {value : Json} {members : List (String × Json)}
    (reads : members? fuel ('"' :: s) = some ((key, value) :: members, rest)) :
    ∃ behindKey behindColon behindValue less, stringBody? none [] s = some (key, behindKey) ∧
      skipBlanks behindKey = ':' :: behindColon ∧
      value? less (skipBlanks behindColon) = some (value, behindValue) := by
  cases fuel with
  | zero => simp [members?] at reads
  | succ fuel =>
    rw [members?.eq_def] at reads
    simp only at reads
    split at reads
    · cases reads
    · next key' behindKey readsKey =>
      split at reads
      · next behindColon colon =>
        split at reads
        · cases reads
        · next value' behindValue readsValue =>
          split at reads
          · obtain ⟨⟨more, behind⟩, -, same⟩ := Option.map_eq_some_iff.mp reads
            cases same
            exact ⟨behindKey, behindColon, behindValue, fuel, readsKey, colon, readsValue⟩
          · cases reads
            exact ⟨behindKey, behindColon, behindValue, fuel, readsKey, colon, readsValue⟩
          · cases reads
      · cases reads

/-- An object ends at a closing brace. -/
theorem value?_object {members : List (String × Json)}
    (reads : value? fuel s = some (.object members, rest)) : '}' :: rest <:+ s := by
  cases fuel with
  | zero => simp [value?] at reads
  | succ fuel =>
    rw [value?.eq_def] at reads
    simp only at reads
    -- one case for each kind of value; only the braces make an object
    split at reads
    · cases reads
    · cases reads
    · cases reads
    · obtain ⟨_, -, same⟩ := Option.map_eq_some_iff.mp reads
      cases same
    · split at reads
      · cases reads
      · obtain ⟨_, -, same⟩ := Option.map_eq_some_iff.mp reads
        cases same
    · next inner =>
      have blanks := (skipBlanks_suffix inner).trans (List.suffix_cons '\x7b' inner)
      split at reads
      · next closes =>
        cases reads
        rw [closes] at blanks
        exact blanks
      · obtain ⟨⟨members, behind⟩, found, same⟩ := Option.map_eq_some_iff.mp reads
        cases same
        exact (members?_suffix fuel found).trans blanks
    · obtain ⟨_, -, same⟩ := Option.map_eq_some_iff.mp reads
      cases same

/-- **A text that is one object ends at a closing brace**, up to blanks. -/
theorem ends_of_parse?_object {text : String} {members : List (String × Json)}
    (parsed : parse? text = some (.object members)) :
    ∃ body blanks, text.toList = body ++ '}' :: blanks ∧ ∀ c ∈ blanks, isBlank c = true := by
  unfold parse? at parsed
  split at parsed
  · next value blanks reads =>
    split at parsed
    · next empty =>
      cases parsed
      obtain ⟨body, split⟩ := (value?_object reads).trans (skipBlanks_suffix text.toList)
      have all : blanks.dropWhile isBlank = [] := List.isEmpty_iff.mp empty
      exact ⟨body, blanks, split.symm, List.dropWhile_eq_nil_iff.mp all⟩
    · cases parsed
  · cases parsed

end Json

end HostBoundary
