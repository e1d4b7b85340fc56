import HostBoundary.Text.Ascii

/-!
# Characters and their bytes

Texts are written and read as characters, and scanned as bytes.  What makes the
two agree is that a byte below 128 is always a character of its own: it is
never a part of another one.  Hence the structure that the ASCII characters
give to a text is the structure that the ASCII bytes give to its spelling.
-/

namespace HostBoundary

namespace Utf8

/-- The bytes of the characters. -/
def spell (s : List Char) : Bytes := s.flatMap String.utf8EncodeChar

@[simp] theorem spell_nil : spell [] = [] := rfl

theorem spell_cons (c : Char) (s : List Char) :
    spell (c :: s) = String.utf8EncodeChar c ++ spell s := rfl

@[simp] theorem spell_append (s t : List Char) : spell (s ++ t) = spell s ++ spell t :=
  List.flatMap_append

theorem encode_ofList (s : List Char) : encode (String.ofList s) = spell s := by
  simp [encode, spell, String.toByteArray_ofList, List.utf8Encode]

theorem encode_eq_spell (text : String) : encode text = spell text.toList := by
  rw [← encode_ofList, String.ofList_toList]

theorem spell_injective {s t : List Char} (same : spell s = spell t) : s = t := by
  rw [← encode_ofList, ← encode_ofList] at same
  exact String.ofList_injective (encode_injective same)

/-- **A byte below 128 is a character of its own.** -/
theorem eq_singleton_of_mem {c : Char} {b : UInt8} (mem : b ∈ String.utf8EncodeChar c)
    (small : b < 128) : String.utf8EncodeChar c = [b] := by
  have bound : b.toNat < 128 := UInt8.lt_iff_toNat_lt.mp small
  have large {n : Nat} (low : 128 ≤ n) (high : n < 256) : b ≠ UInt8.ofNat n := by
    rintro rfl
    rw [UInt8.toNat_ofNat_of_lt' high] at bound
    omega
  simp only [String.utf8EncodeChar] at mem ⊢
  split at mem
  · next ascii =>
    obtain rfl := List.mem_singleton.mp mem
    exact if_pos ascii
  · exfalso
    -- the leading byte and the continuation bytes are all 128 or more
    split at mem
    · simp only [List.mem_cons, List.not_mem_nil, or_false] at mem
      rcases mem with same | same <;> exact large (by omega) (by omega) same
    · split at mem
      · simp only [List.mem_cons, List.not_mem_nil, or_false] at mem
        rcases mem with same | same | same <;> exact large (by omega) (by omega) same
      · simp only [List.mem_cons, List.not_mem_nil, or_false] at mem
        rcases mem with same | same | same | same <;> exact large (by omega) (by omega) same

section Ascii

variable {c : Char} {b : UInt8} (small : b < 128) (spelled : String.utf8EncodeChar c = [b])

include small spelled

theorem eq_of_mem_utf8EncodeChar {d : Char} (mem : b ∈ String.utf8EncodeChar d) : d = c := by
  have same : spell [d] = spell [c] := by
    simp only [spell, List.flatMap_singleton]
    rw [spelled, eq_singleton_of_mem mem small]
  exact List.head_eq_of_cons_eq (spell_injective same)

/-- The spelling has an ASCII byte exactly when the text has its character. -/
theorem mem_spell_iff {s : List Char} : b ∈ spell s ↔ c ∈ s := by
  rw [spell, List.mem_flatMap]
  constructor
  · rintro ⟨d, mem, here⟩
    exact eq_of_mem_utf8EncodeChar small spelled here ▸ mem
  · intro mem
    exact ⟨c, mem, by rw [spelled]; exact List.mem_singleton_self b⟩

/-- The bytes before an ASCII byte spell the characters before its character. -/
theorem takeWhile_spell (s : List Char) :
    (spell s).takeWhile (· != b) = spell (s.takeWhile (· != c)) := by
  induction s with
  | nil => rfl
  | cons d s ih =>
    rw [spell_cons]
    by_cases here : d = c
    · subst here
      simp [spelled]
    · have whole : ∀ e ∈ String.utf8EncodeChar d, (e != b) = true := by
        intro e mem
        rw [bne_iff_ne]
        rintro rfl
        exact here (eq_of_mem_utf8EncodeChar small spelled mem)
      rw [List.takeWhile_append_of_pos whole, ih, List.takeWhile_cons_of_pos (by simpa using here),
        spell_cons]

/-- An ASCII byte at the end of a spelling is a character at the end of the text. -/
theorem eq_concat_of_spell {s : List Char} {front : Bytes} (bytes : spell s = front ++ [b]) :
    ∃ t, s = t ++ [c] ∧ spell t = front := by
  rcases List.eq_nil_or_concat s with rfl | ⟨t, d, rfl⟩
  · simp at bytes
  · rw [List.concat_eq_append, spell_append, spell_cons, spell_nil, List.append_nil] at bytes
    have last : [b] <:+ String.utf8EncodeChar d :=
      List.suffix_of_suffix_length_le ⟨front, rfl⟩ ⟨spell t, bytes⟩
        (List.length_pos_iff.mpr String.utf8EncodeChar_ne_nil)
    obtain rfl := eq_of_mem_utf8EncodeChar small spelled (last.subset (List.mem_singleton_self b))
    rw [spelled] at bytes
    exact ⟨t, List.concat_eq_append, (List.append_inj' bytes rfl).1⟩

end Ascii

/-- ASCII bytes at the front of a spelling are ASCII characters at the front of
the text. -/
theorem eq_append_of_spell {front : List Char} {back : Bytes}
    (ascii : front.all (·.toNat < 128)) {s : List Char}
    (spelled : spell s = spell front ++ back) : ∃ t, s = front ++ t ∧ spell t = back := by
  induction front generalizing s with
  | nil => exact ⟨s, rfl, spelled⟩
  | cons c front ih =>
    rw [List.all_cons, Bool.and_eq_true, decide_eq_true_iff] at ascii
    obtain ⟨below, ascii⟩ := ascii
    obtain ⟨b, small, one⟩ : ∃ b < (128 : UInt8), String.utf8EncodeChar c = [b] := by
      refine ⟨UInt8.ofNat c.toNat, ?_, if_pos (Nat.le_of_lt_succ below)⟩
      rw [UInt8.lt_iff_toNat_lt, UInt8.toNat_ofNat_of_lt' (Nat.lt_trans below (by decide))]
      exact below
    rw [spell_cons, one] at spelled
    cases s with
    | nil => cases spelled
    | cons d s =>
      rw [spell_cons] at spelled
      have begins : b ∈ String.utf8EncodeChar d := by
        cases bytes : String.utf8EncodeChar d with
        | nil => exact absurd bytes String.utf8EncodeChar_ne_nil
        | cons e more =>
          rw [bytes] at spelled
          rw [(List.cons.inj spelled).1]
          exact List.mem_cons_self
      obtain rfl := eq_of_mem_utf8EncodeChar small one begins
      rw [one] at spelled
      obtain ⟨t, rfl, rest⟩ := ih ascii (List.cons.inj spelled).2
      exact ⟨t, rfl, rest⟩

end Utf8

end HostBoundary
