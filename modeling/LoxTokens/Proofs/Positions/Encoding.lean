import LoxTokens.Text.Measure

/-!
# The bytes of a text

Offsets and lengths are counted in the bytes of a text, which are those of its
characters one behind the other.  All bytes of a character but those of ASCII
lie above ASCII, so a byte that looks like a line feed is one.
-/

namespace LoxTokens.Text

def utf8 (text : List Char) : List UInt8 := text.flatMap String.utf8EncodeChar

theorem utf8_cons (c : Char) (text : List Char) :
    utf8 (c :: text) = String.utf8EncodeChar c ++ utf8 text := rfl

theorem utf8_append (front back : List Char) : utf8 (front ++ back) = utf8 front ++ utf8 back :=
  List.flatMap_append

theorem length_utf8 (text : List Char) : (utf8 text).length = bytes text := by
  induction text with
  | nil => rfl
  | cons c text ih =>
      rw [utf8_cons, List.length_append, String.length_utf8EncodeChar, ih, bytes_cons]

theorem toList_toUTF8_ofList (text : List Char) :
    (String.ofList text).toUTF8.data.toList = utf8 text := by
  rw [String.toUTF8, String.toByteArray_ofList, List.utf8Encode, List.toList_data_toByteArray, utf8]

/-- A byte is an ASCII character itself, or lies above ASCII. -/
theorem toNat_of_mem_utf8EncodeChar {c : Char} {byte : UInt8}
    (hmem : byte ∈ String.utf8EncodeChar c) : byte.toNat = c.toNat ∨ 128 ≤ byte.toNat := by
  rw [String.utf8EncodeChar] at hmem
  simp only [Char.toNat]
  split at hmem
  · rw [List.mem_singleton.mp hmem, UInt8.toNat_ofNat']
    omega
  · -- the highest bit is set in the first byte and in those that go on with it
    right
    split at hmem
    · simp only [List.mem_cons, List.not_mem_nil, or_false] at hmem
      rcases hmem with rfl | rfl <;> rw [UInt8.toNat_ofNat'] <;> omega
    · split at hmem
      · simp only [List.mem_cons, List.not_mem_nil, or_false] at hmem
        rcases hmem with rfl | rfl | rfl <;> rw [UInt8.toNat_ofNat'] <;> omega
      · simp only [List.mem_cons, List.not_mem_nil, or_false] at hmem
        rcases hmem with rfl | rfl | rfl | rfl <;> rw [UInt8.toNat_ofNat'] <;> omega

theorem eq_lineFeed_of_mem_utf8EncodeChar {c : Char}
    (hmem : '\n'.toUInt8 ∈ String.utf8EncodeChar c) : c = '\n' := by
  have hfeed : '\n'.toUInt8.toNat = '\n'.toNat := rfl
  rcases toNat_of_mem_utf8EncodeChar hmem with hsame | hlarge
  · exact Char.toNat_inj.mp (hfeed ▸ hsame.symm)
  · rw [hfeed] at hlarge
    exact absurd hlarge (by decide)

end LoxTokens.Text
