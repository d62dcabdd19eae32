import Mathlib.Data.List.Basic
import MarkerGen.SourceTree.Reading

/-! Slices of a text between whole characters: how they join, and that rows count the line breaks
in them. -/
namespace MarkerGen.Reading

theorem toList_loop_eq (bytes : ByteArray) (i : Nat) (done : List UInt8) :
    ByteArray.toList.loop bytes i done = done.reverse ++ bytes.data.toList.drop i := by
  fun_induction ByteArray.toList.loop bytes i done with
  | case1 i done within ih =>
    have inside : i < bytes.data.toList.length := by simpa using within
    rw [ih, List.drop_eq_getElem_cons inside]
    simp [ByteArray.get!, within]
  | case2 i done past =>
    rw [List.drop_eq_nil_of_le (by simpa using Nat.le_of_not_lt past), List.append_nil]

theorem toList_eq (bytes : ByteArray) : bytes.toList = bytes.data.toList := by
  simp [ByteArray.toList, toList_loop_eq]

theorem ten_eq_ofNat_iff {n : Nat} (small : n < 256) : 10 = UInt8.ofNat n ↔ 10 = n := by
  rw [← UInt8.toNat_inj, UInt8.toNat_ofNat', Nat.mod_eq_of_lt small]
  rfl

/-- Only a line break has the byte of a line break in it, since all bytes of a longer character are
above those of ASCII. -/
theorem count_utf8EncodeChar (c : Char) : (String.utf8EncodeChar c).count 10 = if c = '\n' then 1 else 0 := by
  have same : c = '\n' ↔ 10 = c.val.toNat := by
    rw [Char.ext_iff, ← UInt32.toNat_inj]
    exact eq_comm
  have lead {n base : Nat} (least : 128 ≤ base) (most : n + base < 256) : ¬ 10 = UInt8.ofNat (n + base) := by
    rw [ten_eq_ofNat_iff most]
    omega
  have tail (n : Nat) : ¬ 10 = UInt8.ofNat (n % 64 + 128) := lead (by decide) (by omega)
  rw [String.utf8EncodeChar]
  simp only [same]
  split
  next ascii =>
    simp only [List.count_singleton, beq_iff_eq, eq_comm (b := (10 : UInt8)),
      ten_eq_ofNat_iff (show c.val.toNat < 256 by omega)]
  next long =>
    rw [if_neg (show ¬ 10 = c.val.toNat by omega), List.count_eq_zero]
    split
    · simp only [List.mem_cons, List.not_mem_nil, or_false, not_or]
      exact ⟨lead (by decide) (by omega), tail _⟩
    · split
      · simp only [List.mem_cons, List.not_mem_nil, or_false, not_or]
        exact ⟨lead (by decide) (by omega), tail _, tail _⟩
      · simp only [List.mem_cons, List.not_mem_nil, or_false, not_or]
        exact ⟨lead (by decide) (by omega), tail _, tail _, tail _⟩

theorem count_toByteArray (s : String) : s.toByteArray.toList.count 10 = s.toList.count '\n' := by
  have chars (l : List Char) : (l.flatMap String.utf8EncodeChar).count 10 = l.count '\n' := by
    induction l with
    | nil => rfl
    | cons c l ih =>
      rw [List.flatMap_cons, List.count_append, count_utf8EncodeChar, ih, List.count_cons, Nat.add_comm]
      simp
  conv_lhs => rw [← String.ofList_toList (s := s)]
  rw [String.toByteArray_ofList, List.utf8Encode, toList_eq, List.toList_data_toByteArray, chars]

/-- An offset between two characters or at an end of the text. -/
def Bounds (r : Reading) (offset : Nat) : Prop := String.Pos.Raw.IsValid r.text ⟨offset⟩

variable {r : Reading} {a b c : Nat}

theorem bounds_zero : r.Bounds 0 := String.Pos.Raw.isValid_zero

theorem toByteArray_slice (first : r.Bounds a) (last : r.Bounds b) (order : a ≤ b) :
    (r.slice a b).toByteArray = r.text.toByteArray.extract a b := by
  have valid : (r.text.toByteArray.extract a b).IsValidUTF8 :=
    (String.Pos.Raw.isValidUTF8_extract_iff ⟨a⟩ ⟨b⟩ order last.le_rawEndPos).mpr (.inr ⟨first, last⟩)
  rw [slice, String.toUTF8_eq_toByteArray, String.fromUTF8?, dif_pos valid]
  rfl

theorem slice_append_slice (first : r.Bounds a) (middle : r.Bounds b) (last : r.Bounds c) (left : a ≤ b)
    (right : b ≤ c) : r.slice a b ++ r.slice b c = r.slice a c := by
  rw [← String.toByteArray_inj, String.toByteArray_append, toByteArray_slice first middle left,
    toByteArray_slice middle last right, toByteArray_slice first last (Nat.le_trans left right),
    ByteArray.extract_append_extract, Nat.min_eq_left left, Nat.max_eq_right right]

theorem row_eq_count (bounds : r.Bounds a) : r.row a = (r.slice 0 a).toList.count '\n' := by
  rw [row, String.toUTF8_eq_toByteArray, ← toByteArray_slice bounds_zero bounds (Nat.zero_le a), count_toByteArray]

/-- The rows of two offsets differ by the line breaks between them. -/
theorem row_eq_row_add (first : r.Bounds a) (last : r.Bounds b) (order : a ≤ b) :
    r.row b = r.row a + (r.slice a b).toList.count '\n' := by
  rw [row_eq_count first, row_eq_count last,
    ← slice_append_slice bounds_zero first last (Nat.zero_le a) order, String.toList_append, List.count_append]

end MarkerGen.Reading
