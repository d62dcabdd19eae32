import MarkerGen.Enum.Values
import MarkerGen.Proofs.Enum.Literals

/-! What is read as a number by taking off one sign, the letters at the end, and all separators: every
literal, up to the size of words, and texts that are no literals because of one of five slips. -/
namespace MarkerGen.Enum

open Chars Number

/-- A text without its sign. -/
def unsigned : List Char → List Char
  | '+' :: rest => rest
  | '-' :: rest => trim rest
  | text => text

/-- A text without its sign and the letters of a suffix. -/
def numeral (text : List Char) : List Char := dropRightWhile isIntegerSuffix (unsigned text)

/-- The letters of a suffix at the end of a text. -/
def ending (text : List Char) : List Char := ((unsigned text).reverse.takeWhile isIntegerSuffix).reverse

/-- What keeps a text that is read as a number from being misread: it has one sign at most, its digit
separators stand between digits, its letters at the end are an integer suffix, and octal digits after a
plus sign have the same value as decimal ones. -/
structure Tidy (text : List Char) : Prop where
  signs : '+' ∉ numeral text ∧ '-' ∉ numeral text
  mark : base (joined (numeral text)) = base (numeral text)
  separators : [] ∉ parts (unmarked (numeral text))
  suffix : IsSuffix (ending text)
  octal : text.head? = some '+' → base (numeral text) = 8 →
    digits? 8 (joined (numeral text)) = digits? 10 (joined (numeral text))

instance (text : List Char) : Decidable (Tidy text) :=
  decidable_of_iff (('+' ∉ numeral text ∧ '-' ∉ numeral text) ∧ base (joined (numeral text)) = base (numeral text) ∧
      [] ∉ parts (unmarked (numeral text)) ∧ IsSuffix (ending text) ∧ (text.head? = some '+' → base (numeral text) = 8 →
        digits? 8 (joined (numeral text)) = digits? 10 (joined (numeral text))))
    ⟨fun ⟨signs, mark, separators, suffix, octal⟩ => ⟨signs, mark, separators, suffix, octal⟩,
      fun ⟨signs, mark, separators, suffix, octal⟩ => ⟨signs, mark, separators, suffix, octal⟩⟩

variable {b n : Nat} {s text : List Char} {v : Int}

theorem signed?_of_plain (plain : ∀ c ∈ s, c ≠ '+' ∧ c ≠ '-') : signed? b s = (digits? b s).map Int.ofNat := by
  unfold signed?
  split <;> simp_all

theorem inSignedRange_iff {v : Int} : inSignedRange wordBits v = true ↔ -2 ^ 127 ≤ v ∧ v < 2 ^ 127 := by
  have size : wordSize (wordBits - 1) = 2 ^ 127 := rfl
  simp [inSignedRange, size]

theorem signedWord?_eq_some_iff (plain : ∀ c ∈ s, c ≠ '+' ∧ c ≠ '-') {m : Int} :
    signedWord? wordBits b s = some m ↔ ∃ n : Nat, digits? b s = some n ∧ m = n ∧ n < 2 ^ 127 := by
  have range (n : Nat) : inSignedRange wordBits n = true ↔ n < 2 ^ 127 := by
    rw [inSignedRange_iff]
    omega
  rw [signedWord?, signed?_of_plain plain, Option.filter_eq_some_iff]
  simp only [Option.map_eq_some_iff, Int.ofNat_eq_natCast]
  constructor
  · rintro ⟨⟨n, read, rfl⟩, within⟩
    exact ⟨n, read, rfl, (range n).mp within⟩
  · rintro ⟨n, read, rfl, small⟩
    exact ⟨⟨n, read, rfl⟩, (range n).mpr small⟩

/-- Without signs, the digits after the base mark are read in its base. -/
theorem magnitude?_eq_some_iff (plain : ∀ c ∈ s, c ≠ '+' ∧ c ≠ '-') {m : Int} :
    magnitude? s = some m ↔ ∃ n : Nat, digits? (base s) (unmarked s) = some n ∧ m = n ∧ n < 2 ^ 127 := by
  have reading : magnitude? s = signedWord? wordBits (base s) (unmarked s) := by
    rcases unmarked_cases s with ⟨mark, known, t, rfl⟩ | ⟨known, whole⟩
    · simp only [marks, List.mem_cons, List.not_mem_nil, or_false] at known
      rcases known with rfl | rfl | rfl | rfl <;> rfl
    · rw [whole]
      unfold magnitude?
      split
      iterate 4 simp [base] at known
      next octal _ _ _ _ =>
        rw [known.resolve_right (base_zero octal)]
        cases octal with
        | nil => decide +kernel
        | cons c t =>
          -- the leading zero adds nothing to the digits behind it
          have tail : ∀ d ∈ c :: t, d ≠ '+' ∧ d ≠ '-' := fun d member => plain d (List.mem_cons_of_mem _ member)
          rw [if_neg (by simp), signedWord?, signedWord?, signed?_of_plain plain, signed?_of_plain tail]
          rfl
      next other =>
        cases s with
        | nil => rfl
        | cons c t =>
          rw [base_of_ne]
          rintro rfl
          exact other t rfl
  have inside : ∀ c ∈ unmarked s, c ≠ '+' ∧ c ≠ '-' := by
    rcases unmarked_cases s with ⟨mark, known, t, rfl⟩ | ⟨_, whole⟩
    · rw [unmarked_mark known]
      exact fun c member => plain c (by simp [member])
    · rwa [whole]
  rw [reading, signedWord?_eq_some_iff inside]

theorem numeral_append_ending (text : List Char) : numeral text ++ ending text = unsigned text := by
  rw [numeral, dropRightWhile, ending, ← List.reverse_append, List.takeWhile_append_dropWhile, List.reverse_reverse]

theorem dropRightWhile_cons {p : Char → Bool} (stops : p c = false) (s : List Char) :
    dropRightWhile p (c :: s) = c :: dropRightWhile p s := by
  rw [dropRightWhile, dropRightWhile, List.reverse_cons, List.dropWhile_append]
  split
  next none =>
    rw [List.isEmpty_iff.mp none]
    simp [stops]
  next => simp

theorem dropRightWhile_append {p : Char → Bool} {a b : List Char} (last : ∀ c ∈ a, p c = false)
    (all : ∀ c ∈ b, p c = true) : dropRightWhile p (a ++ b) = a := by
  have stops : a.reverse.dropWhile p = a.reverse := by
    rw [List.dropWhile_eq_self_iff]
    intro nonempty
    simpa using last _ (List.mem_reverse.mp (List.getElem_mem nonempty))
  rw [dropRightWhile, List.reverse_append, List.dropWhile_append_of_pos (by simpa using all), stops,
    List.reverse_reverse]

theorem IsSuffix.letters (suffix : IsSuffix s) : ∀ c ∈ s, isIntegerSuffix c = true := by
  have all : ∀ unsigned ∈ [[], ['u'], ['U']], ∀ long ∈ [[], ['l'], ['L'], ['l', 'l'], ['L', 'L']],
      (unsigned ++ long).all isIntegerSuffix = true ∧ (long ++ unsigned).all isIntegerSuffix = true := by
    decide
  obtain ⟨unsigned, first, long, second, rfl | rfl⟩ := suffix
  · exact List.all_eq_true.mp (all unsigned first long second).1
  · exact List.all_eq_true.mp (all unsigned first long second).2

/-- The characters of a literal before its suffix. -/
theorem Magnitude.plain (magnitude : Magnitude s n) :
    ∀ c ∈ s, (isBlank c = false ∧ c ≠ '+' ∧ c ≠ '-') ∧ isIntegerSuffix c = false :=
  magnitude.forall_mem (by decide +kernel) (by simp [marks, isBlank, isIntegerSuffix])

theorem IntegerLiteral.plain (literal : IntegerLiteral s n) : ∀ c ∈ s, isBlank c = false ∧ c ≠ '+' ∧ c ≠ '-' := by
  obtain ⟨front, suffix, rfl, magnitude, letters⟩ := literal
  intro c member
  rcases List.mem_append.mp member with first | last
  · exact (magnitude.plain c first).1
  · have letter := letters.letters c last
    simp only [isIntegerSuffix, Bool.or_eq_true, beq_iff_eq, or_assoc] at letter
    rcases letter with rfl | rfl | rfl | rfl <;> decide

/-- The parts of a literal can be told from its text. -/
theorem IntegerLiteral.read (literal : IntegerLiteral s n) (same : unsigned text = s) :
    Magnitude (numeral text) n ∧ IsSuffix (ending text) := by
  obtain ⟨front, suffix, rfl, magnitude, letters⟩ := literal
  have first : numeral text = front := by
    rw [numeral, same]
    exact dropRightWhile_append (fun c member => (magnitude.plain c member).2) letters.letters
  have second : ending text = suffix := by
    have whole := numeral_append_ending text
    rw [first, same] at whole
    exact List.append_cancel_left whole
  rw [first, second]
  exact ⟨magnitude, letters⟩

theorem unsigned_of_plain (plain : ∀ c ∈ s, c ≠ '+' ∧ c ≠ '-') : unsigned s = s := by
  unfold unsigned
  split <;> simp_all

theorem unsigned_minus {gap : List Char} (blank : Blank gap) (literal : IntegerLiteral s n) :
    unsigned ('-' :: (gap ++ s)) = s := by
  have trimmed := trim_of_blank blank (trimmed_of_solid fun c member => (literal.plain c member).1)
    (show Blank [] by simp [Blank])
  rwa [List.append_nil] at trimmed

theorem literalValue_cons_minus (rest : List Char) :
    literalValue ('-' :: rest) = match magnitude? (joined (numeral ('-' :: rest))) with
      | none => .ok none
      | some m => if inSignedRange wordBits (-m) then .ok (some (-m)) else .error .negationOverflow :=
  rfl

/-- How a text is read, after its sign. -/
theorem literalValue_cases (read : literalValue text = .ok (some v)) :
    (∃ rest, text = '+' :: rest ∧ ∃ n : Nat, digits? 10 (joined (numeral text)) = some n ∧ v = n) ∨
      (∃ rest, text = '-' :: rest ∧ ∃ m, magnitude? (joined (numeral text)) = some m ∧ v = -m) ∨
      unsigned text = text ∧ magnitude? (joined (numeral text)) = some v := by
  by_cases minus : ∃ rest, text = '-' :: rest
  · obtain ⟨rest, rfl⟩ := minus
    refine .inr (.inl ⟨rest, rfl, ?_⟩)
    cases value : magnitude? (joined (numeral ('-' :: rest))) with
    | none => simp [literalValue_cons_minus, value] at read
    | some m =>
      rw [literalValue_cons_minus, value] at read
      dsimp only at read
      split_ifs at read
      exact ⟨m, rfl, (Option.some.inj (Except.ok.inj read)).symm⟩
  · have value : magnitude? (literalDigits text) = some v := by
      unfold literalValue at read
      split at read
      next rest => exact absurd ⟨rest, rfl⟩ minus
      next => exact Except.ok.inj read
    by_cases plus : ∃ rest, text = '+' :: rest
    · obtain ⟨rest, rfl⟩ := plus
      rw [literalDigits, dropRightWhile_cons (by decide), List.filter_cons_of_pos (by decide)] at value
      change signedWord? wordBits 10 ('+' :: joined (numeral ('+' :: rest))) = some v at value
      obtain ⟨n, digits, same⟩ := Option.map_eq_some_iff.mp (Option.filter_eq_some_iff.mp value).1
      exact .inl ⟨rest, rfl, n, digits, same.symm⟩
    · have whole : unsigned text = text := by
        unfold unsigned
        split <;> simp_all
      rw [literalDigits] at value
      rw [numeral, whole]
      exact .inr (.inr ⟨rfl, value⟩)

theorem tidy_of_magnitude (magnitude : Magnitude (numeral text) n) (suffix : IsSuffix (ending text))
    (octal : text.head? = some '+' → base (numeral text) = 8 →
      digits? 8 (joined (numeral text)) = digits? 10 (joined (numeral text))) : Tidy text where
  signs := ⟨fun member => (magnitude.plain _ member).1.2.1 rfl, fun member => (magnitude.plain _ member).1.2.2 rfl⟩
  mark := magnitude.base_joined
  separators := (magnitude_iff.mp magnitude).1
  suffix := suffix
  octal := octal

/-- No gap after a plus sign is read over. -/
theorem gap_eq_nil {gap : List Char} (blank : Blank gap)
    (read : digits? 10 (joined (numeral ('+' :: (gap ++ s)))) = some n) : gap = [] := by
  cases gap with
  | nil => rfl
  | cons g gap =>
    have solid (other : Char) (solid : isBlank other = false) : g ≠ other := by
      rintro rfl
      simp [blank g] at solid
    have letter : isIntegerSuffix g = false := by
      simp [isIntegerSuffix, solid 'u' (by decide), solid 'U' (by decide), solid 'l' (by decide),
        solid 'L' (by decide)]
    have kept : numeral ('+' :: (g :: gap ++ s)) = g :: dropRightWhile isIntegerSuffix (gap ++ s) :=
      dropRightWhile_cons letter _
    rw [kept, joined, List.filter_cons_of_pos (by simpa using solid '\'' (by decide))] at read
    obtain ⟨_, ds, digits, _⟩ := (digits?_eq_some_iff (by decide)).mp read
    obtain ⟨d, _, ⟨small, form⟩, _⟩ := List.forall₂_cons_left_iff.mp digits
    have forms : ∀ d < 10, isBlank (Nat.digitChar d) = false ∧ isBlank (Nat.digitChar d).toUpper = false := by decide
    rcases form with same | same
    · exact absurd same (solid _ (forms d small).1)
    · exact absurd same (solid _ (forms d small).2)

theorem unmarked_of_octal (octal : base s = 8) : unmarked s = s := by
  simp [unmarked, octal]

theorem digits?_mark {mark : Char} (known : mark ∈ marks) (s : List Char) : digits? 10 ('0' :: mark :: s) = none := by
  have none : ∀ mark ∈ marks, digitValue? 10 mark = none := by
    simp [marks, digitValue?]
  have zero : digitValue? 10 '0' = some 0 := by decide
  simp [digits?, digitsFrom, none mark known, zero]

namespace Tidy

theorem literal (tidy : Tidy text) (read : digits? (base (numeral text)) (joined (unmarked (numeral text))) = some n) :
    IntegerLiteral (unsigned text) n :=
  ⟨numeral text, ending text, (numeral_append_ending text).symm, magnitude_iff.mpr ⟨tidy.separators, read⟩, tidy.suffix⟩

theorem literal_of_magnitude (tidy : Tidy text) (read : magnitude? (joined (numeral text)) = some v) :
    ∃ n : Nat, v = n ∧ IntegerLiteral (unsigned text) n := by
  have plain : ∀ c ∈ joined (numeral text), c ≠ '+' ∧ c ≠ '-' := by
    intro c member
    have inside := List.mem_of_mem_filter member
    exact ⟨fun plus => tidy.signs.1 (plus ▸ inside), fun minus => tidy.signs.2 (minus ▸ inside)⟩
  obtain ⟨n, digits, same, _⟩ := (magnitude?_eq_some_iff plain).mp read
  rw [tidy.mark, ← joined_unmarked tidy.mark] at digits
  exact ⟨n, same, tidy.literal digits⟩

theorem literal_of_decimal (tidy : Tidy text) (plus : text.head? = some '+')
    (read : digits? 10 (joined (numeral text)) = some n) : IntegerLiteral (unsigned text) n := by
  apply tidy.literal
  rcases unmarked_cases (numeral text) with ⟨mark, known, t, form⟩ | ⟨octal | decimal, whole⟩
  · rw [form, joined_mark known, digits?_mark known] at read
    cases read
  · rw [whole, octal, tidy.octal plus octal, read]
  · rw [whole, decimal, read]

end Tidy

/-- A text that is read as a number is a literal for it iff it is tidy. -/
theorem denotes_iff_tidy (trimmed : Trimmed text) (read : literalValue text = .ok (some v)) :
    Denotes text v ↔ Tidy text := by
  constructor
  · intro denotes
    cases denotes with
    | @plain s n literal =>
      have plain := fun c member => (literal.plain c member).2
      obtain ⟨magnitude, suffix⟩ := literal.read (unsigned_of_plain plain)
      refine tidy_of_magnitude magnitude suffix fun plus => ?_
      exact absurd rfl (plain '+' (List.mem_of_mem_head? plus)).1
    | @plus gap s n blank literal =>
      obtain ⟨n', digits, same⟩ : ∃ n' : Nat,
          digits? 10 (joined (numeral ('+' :: (gap ++ s)))) = some n' ∧ (n : Int) = n' := by
        rcases literalValue_cases read with ⟨_, _, found⟩ | ⟨_, minus, _⟩ | ⟨whole, _⟩
        · exact found
        · simp at minus
        · simp [unsigned] at whole
      obtain rfl := gap_eq_nil blank digits
      obtain ⟨magnitude, suffix⟩ := literal.read (show unsigned ('+' :: ([] ++ s)) = s from rfl)
      refine tidy_of_magnitude magnitude suffix fun _ octal => ?_
      have value := (magnitude_iff.mp magnitude).2
      rw [unmarked_of_octal octal, octal] at value
      rw [digits, value, Int.ofNat.inj same]
    | @minus gap s n blank literal =>
      obtain ⟨magnitude, suffix⟩ := literal.read (unsigned_minus blank literal)
      exact tidy_of_magnitude magnitude suffix (by simp)
  · intro tidy
    rcases literalValue_cases read with ⟨rest, rfl, n, digits, rfl⟩ | ⟨rest, rfl, m, value, rfl⟩ | ⟨whole, value⟩
    · exact .plus (show Blank [] by simp [Blank]) (tidy.literal_of_decimal rfl digits)
    · obtain ⟨n, rfl, literal⟩ := tidy.literal_of_magnitude value
      obtain ⟨front, back, split, before, after, _⟩ := trim_parts rest
      have none : back = [] := by
        rw [split, ← List.append_assoc, ← List.cons_append] at trimmed
        exact blank_of_trimmed trimmed after
      rw [none, List.append_nil] at split
      rw [split]
      exact .minus before literal
    · obtain ⟨n, rfl, literal⟩ := tidy.literal_of_magnitude value
      rw [whole] at literal
      exact .plain literal

theorem Magnitude.read (magnitude : Magnitude s n) (small : n < 2 ^ 127) : magnitude? (joined s) = some (n : Int) := by
  have plain : ∀ c ∈ joined s, c ≠ '+' ∧ c ≠ '-' := fun c member =>
    (magnitude.plain c (List.mem_of_mem_filter member)).1.2
  refine (magnitude?_eq_some_iff plain).mpr ⟨n, ?_, rfl, small⟩
  rw [magnitude.base_joined, ← joined_unmarked magnitude.base_joined]
  exact (magnitude_iff.mp magnitude).2

theorem literalValue_plain (literal : IntegerLiteral s n) (small : n < 2 ^ 127) :
    literalValue s = .ok (some (n : Int)) := by
  have plain := fun c member => (literal.plain c member).2
  have value := (literal.read (unsigned_of_plain plain)).1.read small
  rw [numeral, unsigned_of_plain plain] at value
  unfold literalValue
  split
  next => exact absurd rfl (plain '-' List.mem_cons_self).2
  next => rw [literalDigits, value]

theorem literalValue_minus {gap : List Char} (blank : Blank gap) (literal : IntegerLiteral s n) (small : n < 2 ^ 127) :
    literalValue ('-' :: (gap ++ s)) = .ok (some (-n)) := by
  have value := (literal.read (unsigned_minus blank literal)).1.read small
  have within : inSignedRange wordBits (-n) = true := by
    rw [inSignedRange_iff]
    omega
  rw [literalValue_cons_minus, value]
  exact if_pos within

/-- A literal below the greatest word is read, with or without a minus sign. -/
theorem literalValue_of_denotes (denotes : Denotes text v) (unplussed : text.head? ≠ some '+')
    (small : v.natAbs < 2 ^ 127) : literalValue text = .ok (some v) := by
  cases denotes with
  | plain literal => exact literalValue_plain literal small
  | plus => exact absurd rfl unplussed
  | minus blank literal => exact literalValue_minus blank literal (by simpa using small)

end MarkerGen.Enum
