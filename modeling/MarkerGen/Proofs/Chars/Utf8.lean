import MarkerGen.Chars.Utf8

/-! The text of bytes that are UTF-8. A lead byte and the tail bytes after it give back the character
that they encode, whatever follows, so that a text is read as it was written. -/
namespace MarkerGen.Utf8

section
variable {b t v value owed low high : Nat} (rest : List UInt8)

theorem lossyFrom_first (byte : b < 256) : lossyFrom none (UInt8.ofNat b :: rest) = (first b).1 ++ lossyFrom (first b).2 rest := by
  rw [lossyFrom, UInt8.toNat_ofNat_of_lt' byte]
  rfl

theorem lossyFrom_lead (byte : b < 256) {begun : Begun} (begins : first b = ([], some begun)) :
    lossyFrom none (UInt8.ofNat b :: rest) = lossyFrom (some begun) rest := by
  rw [lossyFrom_first rest byte, begins]
  rfl

theorem lossyFrom_tail (bits : t < 64) (above : low ≤ t + 0x80) (below : t + 0x80 ≤ high) :
    lossyFrom (some ⟨value, owed + 2, low, high⟩) (UInt8.ofNat (t + 0x80) :: rest) =
      lossyFrom (some ⟨value * 64 + t, owed + 1, 0x80, 0xBF⟩) rest := by
  have byte : t + 0x80 < 256 := by omega
  rw [lossyFrom, UInt8.toNat_ofNat_of_lt' byte, step]
  simp [above, below]

theorem lossyFrom_last (bits : t < 64) (above : low ≤ t + 0x80) (below : t + 0x80 ≤ high) :
    lossyFrom (some ⟨value, 1, low, high⟩) (UInt8.ofNat (t + 0x80) :: rest) =
      Char.ofNat (value * 64 + t) :: lossyFrom none rest := by
  have byte : t + 0x80 < 256 := by omega
  rw [lossyFrom, UInt8.toNat_ofNat_of_lt' byte, step]
  simp [above, below]

/-! One character, by the number of its bytes. The range of the second byte leaves out what is too
small for the length, the surrogates and what is too large. -/

theorem lossyFrom_one (most : v ≤ 0x7F) : lossyFrom none (UInt8.ofNat v :: rest) = Char.ofNat v :: lossyFrom none rest := by
  rw [lossyFrom_first rest (by omega), first, if_pos most]
  rfl

theorem lossyFrom_two (least : 0x7F < v) (most : v ≤ 0x7FF) :
    lossyFrom none (UInt8.ofNat (v / 64 % 32 + 0xC0) :: UInt8.ofNat (v % 64 + 0x80) :: rest) =
      Char.ofNat v :: lossyFrom none rest := by
  have begins : first (v / 64 % 32 + 0xC0) = ([], some ⟨v / 64, 1, 0x80, 0xBF⟩) := by
    have value : v / 64 % 32 = v / 64 := by omega
    rw [first, if_neg (by omega), if_pos (by omega), value, Nat.add_sub_cancel]
  have whole : v / 64 * 64 + v % 64 = v := by omega
  rw [lossyFrom_lead _ (by omega) begins, lossyFrom_last rest (by omega) (by omega) (by omega), whole]

theorem lossyFrom_three (least : 0x7FF < v) (most : v ≤ 0xFFFF) (scalar : v < 0xD800 ∨ 0xDFFF < v) :
    lossyFrom none (UInt8.ofNat (v / 4096 % 16 + 0xE0) :: UInt8.ofNat (v / 64 % 64 + 0x80) ::
        UInt8.ofNat (v % 64 + 0x80) :: rest) = Char.ofNat v :: lossyFrom none rest := by
  have begins : first (v / 4096 % 16 + 0xE0) =
      ([], some ⟨v / 4096, 2, if v / 4096 = 0 then 0xA0 else 0x80, if v / 4096 = 0xD then 0x9F else 0xBF⟩) := by
    have value : v / 4096 % 16 = v / 4096 := by omega
    rw [first, if_neg (by omega), if_neg (by omega), if_pos (by omega)]
    simp [value]
  have whole : (v / 4096 * 64 + v / 64 % 64) * 64 + v % 64 = v := by omega
  rw [lossyFrom_lead _ (by omega) begins, lossyFrom_tail _ (by omega) (by split <;> omega) (by split <;> omega),
    lossyFrom_last rest (by omega) (by omega) (by omega), whole]

theorem lossyFrom_four (least : 0xFFFF < v) (most : v < 0x110000) :
    lossyFrom none (UInt8.ofNat (v / 262144 % 8 + 0xF0) :: UInt8.ofNat (v / 4096 % 64 + 0x80) ::
        UInt8.ofNat (v / 64 % 64 + 0x80) :: UInt8.ofNat (v % 64 + 0x80) :: rest) =
      Char.ofNat v :: lossyFrom none rest := by
  have begins : first (v / 262144 % 8 + 0xF0) =
      ([], some ⟨v / 262144, 3, if v / 262144 = 0 then 0x90 else 0x80, if v / 262144 = 4 then 0x8F else 0xBF⟩) := by
    have value : v / 262144 % 8 = v / 262144 := by omega
    rw [first, if_neg (by omega), if_neg (by omega), if_neg (by omega), if_pos (by omega)]
    simp [value]
  have whole : ((v / 262144 * 64 + v / 4096 % 64) * 64 + v / 64 % 64) * 64 + v % 64 = v := by omega
  rw [lossyFrom_lead _ (by omega) begins, lossyFrom_tail _ (by omega) (by split <;> omega) (by split <;> omega),
    lossyFrom_tail _ (by omega) (by omega) (by omega), lossyFrom_last rest (by omega) (by omega) (by omega), whole]

end

theorem lossyFrom_encoded (c : Char) (rest : List UInt8) :
    lossyFrom none (String.utf8EncodeChar c ++ rest) = c :: lossyFrom none rest := by
  have itself : Char.ofNat c.val.toNat = c := Char.ofNat_toNat c
  have valid : c.val.toNat < 0xD800 ∨ 0xDFFF < c.val.toNat ∧ c.val.toNat < 0x110000 := c.valid
  unfold String.utf8EncodeChar
  generalize c.val.toNat = v at itself valid
  rw [← itself]
  dsimp only
  split
  next one => exact lossyFrom_one rest one
  next more =>
    split
    next two => exact lossyFrom_two rest (by omega) two
    next more =>
      split
      next three => exact lossyFrom_three rest (by omega) three (by omega)
      next more => exact lossyFrom_four rest (by omega) (by omega)

/-- A text is read as it was written. -/
theorem lossy_encode (text : String) : lossy (encode text) = text := by
  have each (chars : List Char) : lossyFrom none (chars.flatMap String.utf8EncodeChar) = chars := by
    induction chars with
    | nil => rfl
    | cons c rest ih => rw [List.flatMap_cons, lossyFrom_encoded, ih]
  rw [lossy, encode, each, String.ofList_toList]

end MarkerGen.Utf8
