import HostBoundary.Text.Utf8

/-!
# ASCII texts

The alphabets of the codecs and the digits of numbers are ASCII, so their texts
and their bytes are the same sequence.  The codecs produce bytes, and `text`
turns them into a text; `encode_text` turns that text back into the very bytes,
which is what lets a scan over bytes be applied to what a codec wrote.
-/

namespace HostBoundary

namespace Ascii

/-- The text that has one character for each byte.  Meant for bytes below 128. -/
def text (bytes : Bytes) : String := String.ofList (bytes.map Char.ofUInt8)

/-- Below 128 a character is its own single byte. -/
theorem utf8EncodeChar_ofUInt8 {b : UInt8} (h : b < 128) :
    String.utf8EncodeChar (Char.ofUInt8 b) = [b] := by
  have small : b.toNat < 128 := by simpa [UInt8.lt_iff_toNat_lt] using h
  have size : (Char.ofUInt8 b).utf8Size = 1 := by
    have : (Char.ofUInt8 b).val = b.toUInt32 := rfl
    simp only [Char.utf8Size, this]
    rw [if_pos]
    simp only [UInt32.le_iff_toNat_le, UInt8.toNat_toUInt32, UInt32.toNat_ofNatLT]
    omega
  rw [String.utf8EncodeChar_eq_singleton size]
  show [b.toUInt32.toUInt8] = [b]
  simp

/-- The bytes of an ASCII text are the bytes it was made from. -/
theorem encode_text {bytes : Bytes} (h : ∀ b ∈ bytes, b < 128) :
    Utf8.encode (text bytes) = bytes := by
  have spelled : (bytes.map Char.ofUInt8).flatMap String.utf8EncodeChar = bytes := by
    induction bytes with
    | nil => rfl
    | cons b rest ih =>
      rw [List.map_cons, List.flatMap_cons, utf8EncodeChar_ofUInt8 (h b (by simp)),
        ih fun b hb => h b (by simp [hb])]
      rfl
  simp [Utf8.encode, text, String.toByteArray_ofList, List.utf8Encode, spelled]

end Ascii

end HostBoundary
