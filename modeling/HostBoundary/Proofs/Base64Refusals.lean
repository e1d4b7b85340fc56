import HostBoundary.Proofs.Base64Texts

/-!
# Which byte of a base64 text is blamed

A text that is not base64 is refused with one of its bytes and the position of
that byte.  The reader drops the padding first and then looks at what is left, so
what it finds out is about a byte of the shorter sequence; what it tells is about
the text as given.

## Positions

Each byte that is kept carries the position that it came from, and positions
only grow along the sequence (`Base64.kept_increasing`).  So the first of the
kept bytes with a property is the first such byte of the text, and the last kept
byte is the last byte of the text that is no padding.  Characters of more than
one byte need no care: a position counts bytes.

## The order of the checks

A sequence is refused for a byte outside the alphabet or for its length.  The
length, when it is one more than a multiple of four, throws suspicion on the last
byte.  `Base64.Blamed` says for each text which byte is blamed: one case for the
lengths that are possible, and three for the ones that are not.

## The codec

Encoded sequences are commonly read by a codec that knows nothing of texts and
complains about an offset in the sequence that it was given.  `Base64.decodeBy` is
the reader over such a codec, which looks up the position and the byte of the
complaint and falls back on a byte and a position that no text has.  For every
codec that makes its complaints in the documented order (`Base64.Documented`),
that reader is the one here, and the fallbacks are never used.

## Main results

* `Base64.blame?_kept_eq_some_iff` — the byte that is blamed.
* `Base64.decodeBy_eq_decode` — the reader over a codec.
* `Base64.refusal_exact` — both, for texts.
-/

namespace HostBoundary

namespace Base64

variable {text : Bytes} {byte : UInt8} {position : Nat}

/-! ## The bytes that count -/

/-- The byte stands at the position and is no padding. -/
def Counts (text : Bytes) (byte : UInt8) (position : Nat) : Prop :=
  text[position]? = some byte ∧ byte ≠ pad

/-- The first byte outside the alphabet among those that count. -/
structure FirstOutside (text : Bytes) (byte : UInt8) (position : Nat) : Prop where
  counts : Counts text byte position
  outside : byte ∉ letters
  first : ∀ b p, Counts text b p → b ∉ letters → position ≤ p

/-- The last byte that counts. -/
structure LastCounting (text : Bytes) (byte : UInt8) (position : Nat) : Prop where
  counts : Counts text byte position
  last : ∀ b p, Counts text b p → p ≤ position

/-- The byte that a text is refused for, and its position in the text. -/
inductive Blamed (text : String) : UInt8 → Nat → Prop
  /-- The length is possible: the first byte outside the alphabet. -/
  | outside {byte : UInt8} {position : Nat} (whole : (stripped text).length % 4 ≠ 1)
      (first : FirstOutside (Utf8.encode text) byte position) : Blamed text byte position
  /-- The length is impossible, and the last byte is outside the alphabet. -/
  | lastOutside {byte : UInt8} {position : Nat} (alone : (stripped text).length % 4 = 1)
      (last : LastCounting (Utf8.encode text) byte position) (outside : byte ∉ letters) :
      Blamed text byte position
  /-- The length is impossible and the last byte is inside the alphabet: the first
  byte outside. -/
  | firstOutside {byte : UInt8} {position : Nat} {b : UInt8} {p : Nat}
      (alone : (stripped text).length % 4 = 1) (last : LastCounting (Utf8.encode text) b p)
      (inside : b ∈ letters) (first : FirstOutside (Utf8.encode text) byte position) :
      Blamed text byte position
  /-- The length is impossible, and all bytes are inside the alphabet: the last one. -/
  | dangling {byte : UInt8} {position : Nat} (alone : (stripped text).length % 4 = 1)
      (inside : ∀ b ∈ stripped text, b ∈ letters)
      (last : LastCounting (Utf8.encode text) byte position) : Blamed text byte position

/-! ## What is kept of a text -/

theorem mem_kept_iff {entry : UInt8 × Nat} :
    entry ∈ kept text ↔ Counts text entry.1 entry.2 := by
  rw [kept, List.mem_filter, List.mem_zipIdx_iff_getElem?, bne_iff_ne, Counts]

/-- Positions grow along what is kept. -/
theorem kept_increasing (text : Bytes) : (kept text).Pairwise fun e f => e.2 < f.2 := by
  have positions : (text.zipIdx.map Prod.snd).Pairwise (· < ·) := by
    rw [List.zipIdx_map_snd]
    exact List.pairwise_lt_range'
  exact (List.pairwise_map.mp positions).filter _

theorem stripped_eq (text : String) :
    stripped text = (kept (Utf8.encode text)).map Prod.fst := (map_fst_kept _).symm

theorem length_kept (text : String) : (kept (Utf8.encode text)).length = (stripped text).length := by
  rw [stripped_eq, List.length_map]

section Increasing

variable {entries : List (UInt8 × Nat)} {entry : UInt8 × Nat}

/-- The first entry with a property has the least position. -/
theorem find?_eq_some_iff_least (increasing : entries.Pairwise fun e f => e.2 < f.2)
    {has : UInt8 × Nat → Bool} :
    entries.find? has = some entry ↔
      entry ∈ entries ∧ has entry = true ∧ ∀ e ∈ entries, has e = true → entry.2 ≤ e.2 := by
  constructor
  · intro found
    refine ⟨List.mem_of_find?_eq_some found, List.find?_some found, ?_⟩
    obtain ⟨-, front, back, rfl, before⟩ := List.find?_eq_some_iff_append.mp found
    intro e mem property
    rcases List.mem_append.mp mem with inFront | here
    · have without := before e inFront
      rw [property] at without
      cases without
    · rcases List.mem_cons.mp here with rfl | inBack
      · exact Nat.le_refl _
      · have later := (List.pairwise_append.mp increasing).2.1
        exact Nat.le_of_lt ((List.pairwise_cons.mp later).1 e inBack)
  · rintro ⟨mem, property, least⟩
    obtain ⟨front, back, rfl⟩ := List.append_of_mem mem
    rw [List.find?_eq_some_iff_append]
    refine ⟨property, front, back, rfl, fun e inFront => ?_⟩
    have earlier : e.2 < entry.2 :=
      (List.pairwise_append.mp increasing).2.2 e inFront entry List.mem_cons_self
    rw [Bool.not_eq_true']
    by_contra absent
    have notEarlier := least e (List.mem_append_left _ inFront) (Bool.of_not_eq_false absent)
    omega

/-- The last entry has the greatest position. -/
theorem getLast?_eq_some_iff_greatest (increasing : entries.Pairwise fun e f => e.2 < f.2) :
    entries.getLast? = some entry ↔ entry ∈ entries ∧ ∀ e ∈ entries, e.2 ≤ entry.2 := by
  constructor
  · intro last
    obtain ⟨front, rfl⟩ := List.getLast?_eq_some_iff.mp last
    refine ⟨by simp, fun e mem => ?_⟩
    rcases List.mem_append.mp mem with inFront | here
    · have earlier := (List.pairwise_append.mp increasing).2.2 e inFront entry (by simp)
      exact Nat.le_of_lt earlier
    · rw [List.mem_singleton] at here
      rw [here]
  · rintro ⟨mem, greatest⟩
    obtain ⟨front, back, rfl⟩ := List.append_of_mem mem
    cases back with
    | nil => exact List.getLast?_eq_some_iff.mpr ⟨front, rfl⟩
    | cons e back =>
      have notLater := greatest e (by simp)
      have later := (List.pairwise_append.mp increasing).2.1
      have := (List.pairwise_cons.mp later).1 e List.mem_cons_self
      omega

end Increasing

/-- Whether an entry is outside the alphabet. -/
theorem notSymbol_iff {b : UInt8} : (!isSymbol b) = true ↔ b ∉ letters := by
  rw [← isSymbol_iff_mem_letters, Bool.not_eq_true', Bool.not_eq_true]

theorem find?_kept_eq_some_iff :
    (kept text).find? (fun entry => !isSymbol entry.1) = some (byte, position) ↔
      FirstOutside text byte position := by
  rw [find?_eq_some_iff_least (kept_increasing text)]
  constructor
  · rintro ⟨mem, outside, least⟩
    refine ⟨mem_kept_iff.mp mem, notSymbol_iff.mp outside, fun b p counts outside => ?_⟩
    exact least (b, p) (mem_kept_iff.mpr counts) (notSymbol_iff.mpr outside)
  · rintro ⟨counts, outside, first⟩
    refine ⟨mem_kept_iff.mpr counts, notSymbol_iff.mpr outside, fun e mem outside => ?_⟩
    exact first e.1 e.2 (mem_kept_iff.mp mem) (notSymbol_iff.mp outside)

theorem getLast?_kept_eq_some_iff :
    (kept text).getLast? = some (byte, position) ↔ LastCounting text byte position := by
  rw [getLast?_eq_some_iff_greatest (kept_increasing text)]
  constructor
  · rintro ⟨mem, greatest⟩
    exact ⟨mem_kept_iff.mp mem, fun b p counts => greatest (b, p) (mem_kept_iff.mpr counts)⟩
  · rintro ⟨counts, last⟩
    exact ⟨mem_kept_iff.mpr counts, fun e mem => last e.1 e.2 (mem_kept_iff.mp mem)⟩

theorem find?_kept_eq_none_iff :
    (kept text).find? (fun entry => !isSymbol entry.1) = none ↔
      ∀ b ∈ (kept text).map Prod.fst, b ∈ letters := by
  rw [List.find?_eq_none, List.forall_mem_map]
  refine forall₂_congr fun entry _ => ?_
  rw [notSymbol_iff, not_not]

/-! ## The order of the checks -/

section Order

variable {entries : List (UInt8 × Nat)} {last : UInt8 × Nat}

theorem blame?_of_whole (whole : entries.length % 4 ≠ 1) :
    blame? entries = entries.find? fun entry => !isSymbol entry.1 :=
  if_neg whole

/-- Where the length is impossible, the last byte goes first. -/
theorem blame?_of_alone (alone : entries.length % 4 = 1) (here : entries.getLast? = some last) :
    blame? entries = if isSymbol last.1 then
      (entries.find? fun entry => !isSymbol entry.1).or (some last) else some last := by
  rw [blame?, if_pos alone, here]

theorem getLast?_of_alone (alone : entries.length % 4 = 1) :
    ∃ last, entries.getLast? = some last := by
  have nonempty : entries ≠ [] := by
    rintro rfl
    cases alone
  exact ⟨_, List.getLast?_eq_some_getLast nonempty⟩

end Order

theorem blamed_of_blame? {text : String}
    (blamed : blame? (kept (Utf8.encode text)) = some (byte, position)) :
    Blamed text byte position := by
  have length := length_kept text
  by_cases alone : (kept (Utf8.encode text)).length % 4 = 1
  · obtain ⟨last, here⟩ := getLast?_of_alone alone
    have lastCounting := getLast?_kept_eq_some_iff.mp here
    rw [blame?_of_alone alone here] at blamed
    rw [length] at alone
    by_cases inside : last.1 ∈ letters
    · rw [if_pos (isSymbol_iff_mem_letters.mpr inside)] at blamed
      cases found : (kept (Utf8.encode text)).find? fun entry => !isSymbol entry.1 with
      | none =>
        rw [found] at blamed
        cases blamed
        have all := find?_kept_eq_none_iff.mp found
        rw [← stripped_eq] at all
        exact .dangling alone all lastCounting
      | some entry =>
        rw [found] at blamed
        cases blamed
        exact .firstOutside alone lastCounting inside (find?_kept_eq_some_iff.mp found)
    · rw [if_neg (mt isSymbol_iff_mem_letters.mp inside)] at blamed
      cases blamed
      exact .lastOutside alone lastCounting inside
  · rw [blame?_of_whole alone] at blamed
    exact .outside (length ▸ alone) (find?_kept_eq_some_iff.mp blamed)

theorem Blamed.blame? {text : String} (blamed : Blamed text byte position) :
    Base64.blame? (kept (Utf8.encode text)) = some (byte, position) := by
  have length := length_kept text
  cases blamed with
  | outside whole first =>
    rw [← length] at whole
    rw [blame?_of_whole whole, find?_kept_eq_some_iff.mpr first]
  | lastOutside alone last outside =>
    rw [← length] at alone
    rw [blame?_of_alone alone (getLast?_kept_eq_some_iff.mpr last),
      if_neg (mt isSymbol_iff_mem_letters.mp outside)]
  | firstOutside alone last inside first =>
    rw [← length] at alone
    rw [blame?_of_alone alone (getLast?_kept_eq_some_iff.mpr last),
      if_pos (isSymbol_iff_mem_letters.mpr inside), find?_kept_eq_some_iff.mpr first,
      Option.some_or]
  | dangling alone inside last =>
    rw [← length] at alone
    rw [stripped_eq] at inside
    have mem : (byte, position) ∈ kept (Utf8.encode text) := mem_kept_iff.mpr last.counts
    have here := inside byte (List.mem_map_of_mem (f := Prod.fst) mem)
    rw [blame?_of_alone alone (getLast?_kept_eq_some_iff.mpr last),
      if_pos (isSymbol_iff_mem_letters.mpr here), find?_kept_eq_none_iff.mpr inside, Option.none_or]

/-- **The byte that is blamed**, for each text that is refused. -/
theorem blame?_kept_eq_some_iff (text : String) (byte : UInt8) (position : Nat) :
    blame? (kept (Utf8.encode text)) = some (byte, position) ↔ Blamed text byte position :=
  ⟨blamed_of_blame?, Blamed.blame?⟩

/-- What is blamed stands in the text and is no padding. -/
theorem Blamed.counts {text : String} (blamed : Blamed text byte position) :
    Counts (Utf8.encode text) byte position := by
  cases blamed with
  | outside _ first | firstOutside _ _ _ first => exact first.counts
  | lastOutside _ last _ | dangling _ _ last => exact last.counts

theorem decode_eq_error_iff {refusal : Refusal} :
    decode text = .error refusal ↔
      blame? (kept text) = some (refusal.byte, refusal.position) := by
  rw [decode]
  cases blame? (kept text) with
  | none => constructor <;> rintro ⟨⟩
  | some entry =>
    constructor
    · rintro ⟨⟩
      rfl
    · rintro ⟨⟩
      rfl

/-! ## The reader over a codec -/

/-- What a codec has to say against a sequence of symbols. -/
inductive Complaint where
  /-- The byte at the offset is outside the alphabet. -/
  | invalidByte (offset : Nat) (byte : UInt8)
  /-- No bytes are written with so many symbols. -/
  | invalidLength (count : Nat)
  /-- The symbol at the offset has bits to spare. -/
  | invalidLastSymbol (offset : Nat) (byte : UInt8)
  /-- The padding is not as it was asked for. -/
  | invalidPadding

/-- The offset that a complaint about `count` symbols blames: the one it names, or
the last one. -/
def Complaint.offset (count : Nat) : Complaint → Nat
  | invalidByte offset _ | invalidLastSymbol offset _ => offset
  | invalidLength _ | invalidPadding => count - 1

/-- The reader over a codec.  The offset of a complaint is traced back to the text;
where that fails, the end of the text is blamed, and padding that stands there. -/
def decodeBy (codec : Bytes → Except Complaint Bytes) (text : Bytes) : Except Refusal Bytes :=
  let symbols := (kept text).map Prod.fst
  let positions := (kept text).map Prod.snd
  (codec symbols).mapError fun complaint =>
    let position := positions[complaint.offset symbols.length]?.getD text.length
    ⟨text[position]?.getD pad, position⟩

/-- What is documented of a codec that takes missing padding and ignores spare
bits, for symbols without padding.  It complains of a trailing byte outside the
alphabet first, where the length is impossible; then of the first byte outside the
alphabet; then of the length. -/
structure Documented (codec : Bytes → Except Complaint Bytes) : Prop where
  reads {s : Bytes} (inside : ∀ b ∈ s, b ∈ letters) (whole : s.length % 4 ≠ 1) :
    codec s = .ok (join (s.filterMap value?))
  trailing {front : Bytes} {last : UInt8} (noPadding : pad ∉ front ++ [last])
    (alone : (front ++ [last]).length % 4 = 1) (outside : last ∉ letters) :
    codec (front ++ [last]) = .error (.invalidByte front.length last)
  invalid {front back : Bytes} {byte : UInt8} (noPadding : pad ∉ front ++ byte :: back)
    (before : ∀ b ∈ front, b ∈ letters) (outside : byte ∉ letters)
    (notTrailing : (front ++ byte :: back).length % 4 = 1 →
      ∀ last ∈ (front ++ byte :: back).getLast?, last ∈ letters) :
    codec (front ++ byte :: back) = .error (.invalidByte front.length byte)
  alone {s : Bytes} (inside : ∀ b ∈ s, b ∈ letters) (alone : s.length % 4 = 1) :
    ∃ count, codec s = .error (.invalidLength count)

section Codec

variable {codec : Bytes → Except Complaint Bytes} {entry : UInt8 × Nat}

theorem pad_notMem_kept (text : Bytes) : pad ∉ (kept text).map Prod.fst := by
  intro mem
  obtain ⟨entry, kept, isPad⟩ := List.mem_map.mp mem
  exact (mem_kept_iff.mp kept).2 isPad

/-- A complaint about an offset that there is needs no fallback: the byte at that
offset is refused, at the position that it came from. -/
theorem decodeBy_of_complaint {complaint : Complaint}
    (complains : codec ((kept text).map Prod.fst) = .error complaint)
    (here : (kept text)[complaint.offset (kept text).length]? = some entry) :
    decodeBy codec text = .error ⟨entry.1, entry.2⟩ := by
  have stands : text[entry.2]? = some entry.1 :=
    (mem_kept_iff.mp (List.mem_of_getElem? here)).1
  have traced : ((kept text).map Prod.snd)[complaint.offset ((kept text).map Prod.fst).length]?
      = some entry.2 := by
    rw [List.length_map, List.getElem?_map, here]
    rfl
  unfold decodeBy
  simp only [complains, Except.mapError, traced, Option.getD_some, stands]

/-- A codec complains of the first byte outside the alphabet, if it does not
complain of the last one. -/
theorem decodeBy_of_outside (documented : Documented codec)
    (found : (kept text).find? (fun entry => !isSymbol entry.1) = some entry)
    (notTrailing : (kept text).length % 4 = 1 →
      ∀ last ∈ (kept text).getLast?, isSymbol last.1 = true) :
    decodeBy codec text = .error ⟨entry.1, entry.2⟩ := by
  obtain ⟨outside, front, back, split, before⟩ := List.find?_eq_some_iff_append.mp found
  have symbols : (kept text).map Prod.fst
      = front.map Prod.fst ++ entry.1 :: back.map Prod.fst := by
    rw [split, List.map_append, List.map_cons]
  have noPadding := pad_notMem_kept text
  have complains : codec ((kept text).map Prod.fst)
      = .error (.invalidByte (front.map Prod.fst).length entry.1) := by
    rw [symbols] at noPadding ⊢
    refine documented.invalid noPadding ?_ (notSymbol_iff.mp outside) ?_
    · rw [List.forall_mem_map]
      intro e mem
      simpa [isSymbol_iff_mem_letters] using before e mem
    · rw [← symbols, List.length_map, List.getLast?_map]
      intro alone last mem
      obtain ⟨e, isLast, rfl⟩ := Option.map_eq_some_iff.mp mem
      exact isSymbol_iff_mem_letters.mp (notTrailing alone e isLast)
  refine decodeBy_of_complaint complains ?_
  rw [Complaint.offset, List.length_map, split, List.getElem?_append_right (Nat.le_refl _),
    Nat.sub_self]
  rfl

/-- Where the length is impossible, a codec complains of a last byte outside the
alphabet. -/
theorem decodeBy_of_trailing (documented : Documented codec)
    (alone : (kept text).length % 4 = 1) (here : (kept text).getLast? = some entry)
    (outside : entry.1 ∉ letters) : decodeBy codec text = .error ⟨entry.1, entry.2⟩ := by
  obtain ⟨front, split⟩ := List.getLast?_eq_some_iff.mp here
  have symbols : (kept text).map Prod.fst = front.map Prod.fst ++ [entry.1] := by
    rw [split, List.map_append, List.map_singleton]
  have noPadding := pad_notMem_kept text
  have complains : codec ((kept text).map Prod.fst)
      = .error (.invalidByte (front.map Prod.fst).length entry.1) := by
    rw [symbols] at noPadding ⊢
    refine documented.trailing noPadding ?_ outside
    rwa [← symbols, List.length_map]
  refine decodeBy_of_complaint complains ?_
  rw [Complaint.offset, List.length_map, split, List.getElem?_concat_length]

/-- A codec complains of the length where there is nothing else to complain of, and
the last byte is blamed. -/
theorem decodeBy_of_dangling (documented : Documented codec)
    (alone : (kept text).length % 4 = 1) (here : (kept text).getLast? = some entry)
    (inside : ∀ b ∈ (kept text).map Prod.fst, b ∈ letters) :
    decodeBy codec text = .error ⟨entry.1, entry.2⟩ := by
  obtain ⟨count, complains⟩ := documented.alone inside (by rwa [List.length_map])
  refine decodeBy_of_complaint complains ?_
  rwa [Complaint.offset, ← List.getLast?_eq_getElem?]

/-- **The reader over a codec is the reader**, and it never falls back. -/
theorem decodeBy_eq_decode (documented : Documented codec) (text : Bytes) :
    decodeBy codec text = decode text := by
  rw [decode]
  cases blamed : blame? (kept text) with
  | none =>
    obtain ⟨symbols, whole⟩ := blame?_eq_none_iff.mp blamed
    have inside : ∀ b ∈ (kept text).map Prod.fst, b ∈ letters := by
      rw [List.forall_mem_map]
      exact fun entry mem => isSymbol_iff_mem_letters.mp (symbols entry mem)
    have reads := documented.reads inside (by rwa [List.length_map])
    rw [decodeBy, reads, List.filterMap_map]
    rfl
  | some entry =>
    by_cases alone : (kept text).length % 4 = 1
    · obtain ⟨last, here⟩ := getLast?_of_alone alone
      rw [blame?_of_alone alone here] at blamed
      by_cases symbol : isSymbol last.1 = true
      · rw [if_pos symbol] at blamed
        cases found : (kept text).find? fun entry => !isSymbol entry.1 with
        | some first =>
          rw [found] at blamed
          cases blamed
          refine decodeBy_of_outside documented found fun _ e isLast => ?_
          rw [here] at isLast
          cases isLast
          exact symbol
        | none =>
          rw [found] at blamed
          cases blamed
          exact decodeBy_of_dangling documented alone here (find?_kept_eq_none_iff.mp found)
      · rw [if_neg symbol] at blamed
        cases blamed
        exact decodeBy_of_trailing documented alone here fun inside =>
          symbol (isSymbol_iff_mem_letters.mpr inside)
    · rw [blame?_of_whole alone] at blamed
      exact decodeBy_of_outside documented blamed fun impossible => absurd impossible alone

end Codec

/-- A codec that complains in the documented order. -/
def lenient (s : Bytes) : Except Complaint Bytes :=
  if s.length % 4 = 1 ∧ s.getLast?.any (!isSymbol ·) = true then
    .error (.invalidByte (s.length - 1) (s.getLast?.getD pad))
  else
    match s.dropWhile isSymbol with
    | byte :: _ => .error (.invalidByte (s.takeWhile isSymbol).length byte)
    | [] =>
      if s.length % 4 = 1 then .error (.invalidLength s.length)
      else .ok (join (s.filterMap value?))

theorem dropWhile_isSymbol {s : Bytes} (inside : ∀ b ∈ s, b ∈ letters) :
    s.dropWhile isSymbol = [] := by
  rw [List.dropWhile_eq_nil_iff]
  exact fun b mem => isSymbol_iff_mem_letters.mpr (inside b mem)

/-- There is such a codec. -/
theorem lenient_documented : Documented lenient where
  reads inside whole := by
    unfold lenient
    rw [if_neg fun both => whole both.1, dropWhile_isSymbol inside]
    exact if_neg whole
  trailing {front last} _ alone outside := by
    have here : (front ++ [last]).getLast? = some last := List.getLast?_concat
    have notSymbol : (!isSymbol last) = true := notSymbol_iff.mpr outside
    unfold lenient
    rw [here, if_pos ⟨alone, notSymbol⟩, List.length_append, List.length_singleton,
      Nat.add_sub_cancel, Option.getD_some]
  invalid {front back byte} _ before outside notTrailing := by
    have symbols : ∀ b ∈ front, isSymbol b = true :=
      fun b mem => isSymbol_iff_mem_letters.mpr (before b mem)
    have notSymbol : ¬ isSymbol byte = true := by rwa [isSymbol_iff_mem_letters]
    have silent : ¬ ((front ++ byte :: back).length % 4 = 1 ∧
        (front ++ byte :: back).getLast?.any (!isSymbol ·) = true) := by
      rintro ⟨alone, trailing⟩
      obtain ⟨last, here, outside⟩ := (Option.any_eq_true _ _).mp trailing
      exact notSymbol_iff.mp outside (notTrailing alone last here)
    unfold lenient
    rw [if_neg silent, List.dropWhile_append_of_pos symbols, List.dropWhile_cons_of_neg notSymbol,
      List.takeWhile_append_of_pos symbols, List.takeWhile_cons_of_neg notSymbol, List.append_nil]
  alone {s} inside alone := by
    have silent : ¬ (s.length % 4 = 1 ∧ s.getLast?.any (!isSymbol ·) = true) := by
      rintro ⟨-, trailing⟩
      obtain ⟨last, here, outside⟩ := (Option.any_eq_true _ _).mp trailing
      exact notSymbol_iff.mp outside (inside last (List.mem_of_getLast? here))
    refine ⟨s.length, ?_⟩
    unfold lenient
    rw [if_neg silent, dropWhile_isSymbol inside]
    exact if_pos alone

/-! ## Texts -/

/-- **Which byte is blamed.**  A text is refused for the byte that `Blamed` tells,
and that byte stands in the text, at the position that is told, and is no padding.
The reader over any codec that complains in the documented order comes to the same
result. -/
theorem refusal_exact (text : String) :
    (∀ error, decodeBase64 text = .error error ↔ ∃ byte position,
      Blamed text byte position ∧ error = .base64 byte (UInt64.ofNat position)) ∧
    (∀ byte position, Blamed text byte position →
      position < (Utf8.encode text).length ∧ (Utf8.encode text)[position]? = some byte ∧
      byte ≠ pad) ∧
    ∀ codec, Documented codec →
      (decodeBy codec (Utf8.encode text)).mapError BoundaryError.ofBase64
        = decodeBase64 text := by
  refine ⟨fun error => ?_, fun byte position blamed => ?_, fun codec documented => ?_⟩
  · rw [decodeBase64, mapError_eq_error_iff]
    constructor
    · rintro ⟨⟨byte, position⟩, refused, rfl⟩
      have blamed := decode_eq_error_iff.mp refused
      exact ⟨byte, position, (blame?_kept_eq_some_iff text byte position).mp blamed, rfl⟩
    · rintro ⟨byte, position, blamed, rfl⟩
      have refused := (blame?_kept_eq_some_iff text byte position).mpr blamed
      exact ⟨⟨byte, position⟩, decode_eq_error_iff.mpr refused, rfl⟩
  · obtain ⟨stands, notPad⟩ := blamed.counts
    exact ⟨(List.getElem?_eq_some_iff.mp stands).1, stands, notPad⟩
  · rw [decodeBy_eq_decode documented, decodeBase64]

/-- Five bytes are left of the text, and the last one is a letter: the first byte of
the umlaut is blamed, and the padding in front of it counts. -/
theorem refusal_exact_umlaut :
    Documented lenient ∧ Blamed "Q=öQQ" 0xC3 2 ∧
    decodeBase64 "Q=öQQ" = .error (.base64 0xC3 2) ∧
    (decodeBy lenient (Utf8.encode "Q=öQQ")).mapError BoundaryError.ofBase64
      = .error (.base64 0xC3 2) := by
  have bytes : Utf8.encode "Q=öQQ" = [81, 61, 0xC3, 0xB6, 81, 81] := by decide
  have last : LastCounting (Utf8.encode "Q=öQQ") 81 5 := by
    rw [bytes]
    refine ⟨⟨rfl, by decide⟩, fun b p counts => ?_⟩
    have inside := (List.getElem?_eq_some_iff.mp counts.1).1
    exact Nat.le_of_lt_succ inside
  have first : FirstOutside (Utf8.encode "Q=öQQ") 0xC3 2 := by
    rw [bytes]
    refine ⟨⟨rfl, by decide⟩, by decide, ?_⟩
    rintro b (_ | _ | p) ⟨stands, notPad⟩ outside
    · cases stands
      exact absurd (by decide) outside
    · cases stands
      exact absurd rfl notPad
    · exact Nat.le_add_left 2 p
  have blamed : Blamed "Q=öQQ" 0xC3 2 := .firstOutside (by decide) last (by decide) first
  obtain ⟨refused, -, agrees⟩ := refusal_exact "Q=öQQ"
  have error := (refused (.base64 0xC3 2)).mpr ⟨0xC3, 2, blamed, rfl⟩
  exact ⟨lenient_documented, blamed, error, (agrees lenient lenient_documented).trans error⟩

end Base64

end HostBoundary
