import MarkerGen.Proofs.Chars.Digits
import MarkerGen.Proofs.Chars.Ends
import MarkerGen.Proofs.Chars.Split

/-! Integer literals with an optional sign. Their digits are told from the text without separators, and
separators are in place if they leave no part of the digits empty. -/
namespace MarkerGen.Enum

open Chars Number

/-- Digits of a base, at most one separator between two of them, and their values. -/
inductive DigitSequence (base : Nat) : List Char → List Nat → Prop
  | single {c : Char} {d : Nat} (digit : IsDigit base c d) : DigitSequence base [c] [d]
  | next {c : Char} {d : Nat} {s : List Char} {ds : List Nat} (digit : IsDigit base c d)
      (rest : DigitSequence base s ds) : DigitSequence base (c :: s) (d :: ds)
  | separated {c : Char} {d : Nat} {s : List Char} {ds : List Nat} (digit : IsDigit base c d)
      (rest : DigitSequence base s ds) : DigitSequence base (c :: '\'' :: s) (d :: ds)

def base : List Char → Nat
  | '0' :: mark :: _ => if mark = 'x' ∨ mark = 'X' then 16 else if mark = 'b' ∨ mark = 'B' then 2 else 8
  | ['0'] => 8
  | _ => 10

def marks : List Char := ['x', 'X', 'b', 'B']

def unmarked (s : List Char) : List Char := if base s = 16 ∨ base s = 2 then s.drop 2 else s

/-- The number that a literal without suffix stands for. -/
def Magnitude (s : List Char) (n : Nat) : Prop :=
  ∃ ds, DigitSequence (base s) (unmarked s) ds ∧ n = Nat.ofDigits (base s) ds.reverse

/-- An integer suffix, which may ask for an unsigned type, a long one, or both in any order. -/
def IsSuffix (s : List Char) : Prop :=
  ∃ unsigned ∈ [[], ['u'], ['U']], ∃ long ∈ [[], ['l'], ['L'], ['l', 'l'], ['L', 'L']],
    s = unsigned ++ long ∨ s = long ++ unsigned

instance (s : List Char) : Decidable (IsSuffix s) :=
  inferInstanceAs (Decidable (∃ unsigned ∈ _, ∃ long ∈ _, s = unsigned ++ long ∨ s = long ++ unsigned))

def IntegerLiteral (s : List Char) (n : Nat) : Prop :=
  ∃ numeral suffix, s = numeral ++ suffix ∧ Magnitude numeral n ∧ IsSuffix suffix

/-- An integer literal with an optional sign, and its value. -/
inductive Denotes : List Char → Int → Prop
  | plain {s : List Char} {n : Nat} (literal : IntegerLiteral s n) : Denotes s n
  | plus {gap s : List Char} {n : Nat} (blank : Blank gap) (literal : IntegerLiteral s n) :
      Denotes ('+' :: (gap ++ s)) n
  | minus {gap s : List Char} {n : Nat} (blank : Blank gap) (literal : IntegerLiteral s n) :
      Denotes ('-' :: (gap ++ s)) (-n)

abbrev joined (s : List Char) : List Char := s.filter (· != '\'')

abbrev parts (s : List Char) : List (List Char) := splitAt (· == '\'') s

variable {b d n : Nat} {c : Char} {s : List Char} {ds : List Nat}

theorem base_le (s : List Char) : base s ≤ 16 := by
  unfold base
  split
  · split_ifs <;> decide
  · decide
  · decide

theorem ne_of_isDigit (small : b ≤ 16) (digit : IsDigit b c d) (other : Char) (none : digitValue? 16 other = none) :
    c ≠ other := by
  rintro rfl
  have value := ((digitValue?_base small).mp ((digitValue?_eq_some_iff small).mpr digit)).2
  rw [none] at value
  cases value

theorem ne_separator (full : [] ∉ parts (c :: s)) : c ≠ '\'' := by
  rintro rfl
  simp [parts, splitAt] at full

theorem parts_cons (plain : c ≠ '\'') (s : List Char) :
    ∃ part others, parts s = part :: others ∧ parts (c :: s) = (c :: part) :: others := by
  obtain ⟨part, others, split⟩ : ∃ part others, splitAt (· == '\'') s = part :: others :=
    List.exists_cons_of_ne_nil (splitAt_ne_nil s)
  refine ⟨part, others, split, ?_⟩
  rw [parts, splitAt, if_neg (by simpa using plain), split]

theorem DigitSequence.split (small : b ≤ 16) (sequence : DigitSequence b s ds) :
    [] ∉ parts s ∧ ds ≠ [] ∧ List.Forall₂ (IsDigit b) (joined s) ds := by
  induction sequence with
  | @single c d digit =>
    have plain := ne_of_isDigit small digit '\'' (by decide)
    simp [parts, splitAt, joined, plain, digit]
  | @next c d s ds digit rest ih =>
    have plain := ne_of_isDigit small digit '\'' (by decide)
    obtain ⟨part, others, split, whole⟩ := parts_cons plain s
    obtain ⟨full, _, digits⟩ := ih
    rw [split] at full
    simp_all [joined]
  | @separated c d s ds digit rest ih =>
    have plain := ne_of_isDigit small digit '\'' (by decide)
    obtain ⟨full, _, digits⟩ := ih
    simp_all [parts, splitAt, joined]

theorem digitSequence_of_split (small : b ≤ 16) : ∀ {s : List Char} {ds : List Nat}, [] ∉ parts s →
    List.Forall₂ (IsDigit b) (joined s) ds → DigitSequence b s ds
  | [], _, full, _ => absurd (List.mem_singleton.mpr rfl) full
  | c :: s, ds, full, digits => by
    have plain := ne_separator full
    rw [joined, List.filter_cons_of_pos (by simpa using plain)] at digits
    obtain ⟨d, later, digit, rest, rfl⟩ := List.forall₂_cons_left_iff.mp digits
    cases s with
    | nil =>
      rw [List.filter_nil, List.forall₂_nil_left_iff] at rest
      subst rest
      exact .single digit
    | cons e s =>
      by_cases separator : e = '\''
      · subst separator
        refine .separated digit (digitSequence_of_split small ?_ ?_)
        · simp_all [parts, splitAt]
        · simpa using rest
      · refine .next digit (digitSequence_of_split small ?_ rest)
        obtain ⟨part, others, _, split⟩ := parts_cons separator s
        obtain ⟨_, _, split', whole⟩ := parts_cons plain (e :: s)
        simp_all

/-- A magnitude is digits that can be read, with no separator at their ends or beside another one. -/
theorem magnitude_iff : Magnitude s n ↔ [] ∉ parts (unmarked s) ∧ digits? (base s) (joined (unmarked s)) = some n := by
  rw [digits?_eq_some_iff (base_le s)]
  constructor
  · rintro ⟨ds, sequence, total⟩
    obtain ⟨full, some, digits⟩ := sequence.split (base_le s)
    refine ⟨full, ?_, ds, digits, total⟩
    intro none
    rw [none, List.forall₂_nil_left_iff] at digits
    exact some digits
  · rintro ⟨full, _, ds, digits, total⟩
    exact ⟨ds, digitSequence_of_split (base_le s) full digits, total⟩

theorem unmarked_mark {mark : Char} (known : mark ∈ marks) (t : List Char) : unmarked ('0' :: mark :: t) = t := by
  simp only [marks, List.mem_cons, List.not_mem_nil, or_false] at known
  rcases known with rfl | rfl | rfl | rfl <;> rfl

theorem joined_mark {mark : Char} (known : mark ∈ marks) (t : List Char) :
    joined ('0' :: mark :: t) = '0' :: mark :: joined t := by
  have plain : mark ≠ '\'' := by
    rintro rfl
    exact absurd known (by decide)
  simp [joined, plain]

theorem unmarked_cases (s : List Char) :
    (∃ mark ∈ marks, ∃ t, s = '0' :: mark :: t) ∨ (base s = 8 ∨ base s = 10) ∧ unmarked s = s := by
  unfold unmarked base
  split
  next mark t =>
    by_cases known : mark ∈ marks
    · exact .inl ⟨mark, known, t, rfl⟩
    · simp only [marks, List.mem_cons, List.not_mem_nil, or_false, not_or] at known
      simp [known]
  · simp
  · simp

theorem base_of_ne (other : c ≠ '0') (t : List Char) : base (c :: t) = 10 := by
  unfold base
  split <;> simp_all

theorem base_zero (t : List Char) : base ('0' :: t) ≠ 10 := by
  cases t with
  | nil => decide
  | cons mark t =>
    rw [base]
    split_ifs <;> decide

theorem base_of_octal (digits : List.Forall₂ (IsDigit 8) ('0' :: s) ds) : base ('0' :: s) = 8 := by
  cases digits with
  | cons _ digits =>
    cases digits with
    | nil => rfl
    | @cons e d t _ digit _ =>
      have other (mark : Char) (none : digitValue? 8 mark = none) : e ≠ mark := by
        rintro rfl
        rw [(digitValue?_eq_some_iff (by decide)).mpr digit] at none
        cases none
      simp [base, other 'x' (by decide), other 'X' (by decide), other 'b' (by decide), other 'B' (by decide)]

/-- Separators between digits have no part in the base. -/
theorem Magnitude.base_joined (magnitude : Magnitude s n) : base (joined s) = base s := by
  obtain ⟨ds, sequence, _⟩ := magnitude
  obtain ⟨full, _, digits⟩ := sequence.split (base_le s)
  rcases unmarked_cases s with ⟨mark, known, t, rfl⟩ | ⟨known, whole⟩
  · rw [joined_mark known]
    rfl
  · rw [whole] at full digits
    cases s with
    | nil => rfl
    | cons c t =>
      have plain := ne_separator full
      rw [joined, List.filter_cons_of_pos (by simpa using plain)] at digits ⊢
      by_cases zero : c = '0'
      · subst zero
        have octal := known.resolve_right (base_zero t)
        rw [octal] at digits
        rw [octal, base_of_octal digits]
      · rw [base_of_ne zero, base_of_ne zero]

theorem joined_unmarked (same : base (joined s) = base s) : joined (unmarked s) = unmarked (joined s) := by
  rcases unmarked_cases s with ⟨mark, known, t, rfl⟩ | ⟨known, whole⟩
  · rw [joined_mark known, unmarked_mark known, unmarked_mark known]
  · rw [whole, unmarked, same]
    rcases known with octal | decimal <;> simp [*]

theorem Magnitude.forall_mem (magnitude : Magnitude s n) {p : Char → Prop}
    (digits : ∀ d < 16, p (Nat.digitChar d) ∧ p (Nat.digitChar d).toUpper)
    (others : ∀ c ∈ '\'' :: marks, p c) : ∀ c ∈ s, p c := by
  obtain ⟨ds, sequence, -⟩ := magnitude
  have digit {c : Char} {d : Nat} (digit : IsDigit (base s) c d) : p c := by
    obtain ⟨small, form⟩ := digit
    have both := digits d (Nat.lt_of_lt_of_le small (base_le s))
    rcases form with rfl | rfl
    · exact both.1
    · exact both.2
  have inside : ∀ c ∈ unmarked s, p c := by
    generalize unmarked s = t at sequence
    induction sequence with
    | single first => simpa using digit first
    | next first _ ih => simpa using ⟨digit first, ih⟩
    | separated first _ ih => simpa using ⟨digit first, others _ List.mem_cons_self, ih⟩
  rcases unmarked_cases s with ⟨mark, known, t, rfl⟩ | ⟨_, whole⟩
  · rw [unmarked_mark known] at inside
    intro c member
    simp only [List.mem_cons] at member
    rcases member with rfl | rfl | tail
    · exact (digits 0 (by decide)).1
    · exact others c (List.mem_cons_of_mem _ known)
    · exact inside c tail
  · rwa [whole] at inside

end MarkerGen.Enum
