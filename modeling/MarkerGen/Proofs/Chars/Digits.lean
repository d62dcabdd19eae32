import Mathlib.Data.List.Forall2
import Mathlib.Data.Nat.Digits.Defs
import MarkerGen.Number
import MarkerGen.Proofs.Chars.Ascii

/-! Digits of a base and the numbers that they denote. -/
namespace MarkerGen.Number

/-- A digit of a base, in either case, with its value. -/
def IsDigit (base : Nat) (c : Char) (d : Nat) : Prop :=
  d < base ∧ (c = Nat.digitChar d ∨ c = (Nat.digitChar d).toUpper)

variable {base d n : Nat} {c : Char} {s : List Char}

theorem digitValue?_base (small : base ≤ 16) :
    digitValue? base c = some d ↔ d < base ∧ digitValue? 16 c = some d := by
  simp only [digitValue?]
  generalize c.toNat - '0'.toNat = decimal
  generalize c.toNat - 'a'.toNat + 10 = lower
  generalize c.toNat - 'A'.toNat + 10 = upper
  split_ifs <;> simp <;> omega

theorem digitValue?_ascii (read : digitValue? 16 c = some d) : c.toNat < 128 := by
  by_contra far
  have above {first last : Char} (ascii : last.toNat < 128) : ¬ (first ≤ c ∧ c ≤ last) := fun within =>
    far (Nat.lt_of_le_of_lt (UInt32.le_iff_toNat_le.mp within.2) ascii)
  rw [digitValue?, if_neg (above (by decide)), if_neg (above (by decide)), if_neg (above (by decide))] at read
  cases read

theorem digitValue?_eq_some_iff (small : base ≤ 16) : digitValue? base c = some d ↔ IsDigit base c d := by
  rw [digitValue?_base small, IsDigit, and_congr_right_iff]
  intro below
  have hex : d < 16 := by omega
  constructor
  · intro read
    have forms : ∀ d < 16, digitValue? 16 c = some d → c = Nat.digitChar d ∨ c = (Nat.digitChar d).toUpper := by
      apply Chars.ascii_induction ?_ (digitValue?_ascii read)
      decide +kernel
    exact forms d hex read
  · have forms : ∀ d < 16,
        digitValue? 16 (Nat.digitChar d) = some d ∧ digitValue? 16 (Nat.digitChar d).toUpper = some d := by
      decide +kernel
    rintro (rfl | rfl)
    · exact (forms d hex).1
    · exact (forms d hex).2

theorem digitsFrom_eq_some_iff (small : base ≤ 16) {read : Nat} : digitsFrom base read s = some n ↔
    ∃ ds, List.Forall₂ (IsDigit base) s ds ∧ n = ds.foldl (fun n d => n * base + d) read := by
  induction s generalizing read with
  | nil => simp [digitsFrom, List.forall₂_nil_left_iff, eq_comm]
  | cons c s ih =>
    rw [digitsFrom]
    constructor
    · intro found
      cases value : digitValue? base c with
      | none => simp [value] at found
      | some d =>
        rw [value] at found
        obtain ⟨ds, digits, total⟩ := ih.mp found
        exact ⟨d :: ds, .cons ((digitValue?_eq_some_iff small).mp value) digits, total⟩
    · rintro ⟨_, _ | ⟨first, digits⟩, total⟩
      rw [(digitValue?_eq_some_iff small).mpr first]
      exact ih.mpr ⟨_, digits, total⟩

theorem digits?_eq_some_iff (small : base ≤ 16) : digits? base s = some n ↔
    s ≠ [] ∧ ∃ ds, List.Forall₂ (IsDigit base) s ds ∧ n = Nat.ofDigits base ds.reverse := by
  have total (ds : List Nat) : Nat.ofDigits base ds.reverse = ds.foldl (fun n d => n * base + d) 0 := by
    rw [Nat.ofDigits_eq_foldr, List.foldr_reverse]
    simp [Nat.add_comm, Nat.mul_comm]
  simp only [total]
  cases s with
  | nil => simp [digits?]
  | cons c s => simp [digits?, digitsFrom_eq_some_iff small]

end MarkerGen.Number
