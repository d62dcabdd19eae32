import MarkerGen.Text

/-! Characters of ASCII: facts that are decided by going through them. -/
namespace MarkerGen.Chars

theorem ascii_of_isAlphanum {c : Char} (plain : c.isAlphanum = true) : c.toNat < 128 := by
  have parts : ((c.isUpper || c.isLower) || c.isDigit) = true := plain
  have small (last : Char) (below : c.val ≤ last.val) (ascii : last.toNat < 128) : c.toNat < 128 :=
    Nat.lt_of_le_of_lt (UInt32.le_iff_toNat_le.mp below) ascii
  simp only [Bool.or_eq_true] at parts
  rcases parts with (upper | lower) | digit
  · exact small 'Z' (of_decide_eq_true upper).2 (by decide)
  · exact small 'z' (of_decide_eq_true (Bool.and_eq_true_iff.mp lower).2) (by decide)
  · exact small '9' (of_decide_eq_true (Bool.and_eq_true_iff.mp digit).2) (by decide)

theorem ascii_induction {motive : Char → Prop} (all : ∀ n < 128, motive (Char.ofNat n)) {c : Char}
    (small : c.toNat < 128) : motive c := by
  simpa using all c.toNat small

theorem wordChar_ascii {c : Char} (word : isWordChar c = true) : c.toNat < 128 := by
  simp only [isWordChar, Bool.or_eq_true, beq_iff_eq] at word
  rcases word with plain | rfl
  · exact ascii_of_isAlphanum plain
  · decide

theorem wordChar_solid {c : Char} (word : isWordChar c = true) : isBlank c = false := by
  have small := wordChar_ascii word
  revert word
  apply ascii_induction ?_ small
  decide

/-- Beyond ASCII there is no other letter case. -/
theorem toLower_cases (c : Char) : c.toNat < 128 ∨ c.toLower = c := by
  by_cases upper : c.val ≥ 'A'.val ∧ c.val ≤ 'Z'.val
  · exact .inl (Nat.lt_of_le_of_lt (UInt32.le_iff_toNat_le.mp upper.2) (by decide : 'Z'.toNat < 128))
  · exact .inr (dif_neg upper)

theorem wordChar_toLower (c : Char) : isWordChar c.toLower = isWordChar c := by
  rcases toLower_cases c with small | same
  · apply ascii_induction ?_ small
    decide
  · rw [same]

theorem wordChar_toUpper {c : Char} (word : isWordChar c = true) : isWordChar c.toUpper = true := by
  have small := wordChar_ascii word
  revert word
  apply ascii_induction ?_ small
  decide

theorem toLower_eq_underscore {c : Char} : c.toLower = '_' ↔ c = '_' := by
  rcases toLower_cases c with small | same
  · apply ascii_induction ?_ small
    decide
  · rw [same]

theorem lowerChar_toLower (c : Char) : lowerChar c.toLower = lowerChar c := by
  rcases toLower_cases c with small | same
  · apply ascii_induction ?_ small
    decide +kernel
  · rw [same]

theorem upperChar_toLower (c : Char) : upperChar c.toLower = upperChar c := by
  rcases toLower_cases c with small | same
  · apply ascii_induction ?_ small
    decide +kernel
  · rw [same]

end MarkerGen.Chars
