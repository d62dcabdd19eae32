import Mathlib.Data.List.Basic
import MarkerGen.Proofs.Chars.Split

/-! The words of a text, which blanks divide, and the text with its blanks collapsed. -/
namespace MarkerGen.Chars

/-- The words are the pieces between blanks that are not empty. -/
theorem words_eq_filter (s : List Char) : words s = (splitAt isBlank s).filter (!·.isEmpty) := by
  induction s with
  | nil => rfl
  | cons c s ih =>
    cases s with
    | nil => cases blank : isBlank c <;> simp [words.eq_def, splitAt, blank]
    | cons d s =>
      obtain ⟨piece, pieces, split⟩ := List.exists_cons_of_ne_nil (@splitAt_ne_nil isBlank s)
      have below : splitAt isBlank (d :: s) = if isBlank d then [] :: piece :: pieces else (d :: piece) :: pieces := by
        rw [splitAt, split]
      rw [below] at ih
      rw [words.eq_def, splitAt, below]
      dsimp only
      rw [ih]
      cases isBlank c <;> cases isBlank d <;> simp

@[simp] theorem words_nil : words [] = [] := rfl

theorem words_append_blank (a b : List Char) {c : Char} (blank : isBlank c = true) :
    words (a ++ c :: b) = words a ++ words b := by
  simp [words_eq_filter, splitAt_append_cons a b blank]

theorem words_cons_blank {c : Char} (blank : isBlank c = true) (s : List Char) : words (c :: s) = words s :=
  words_append_blank [] s blank

theorem solid_of_mem_words {s word : List Char} (member : word ∈ words s) : ∀ c ∈ word, isBlank c = false := by
  rw [words_eq_filter] at member
  exact free_of_mem_splitAt (List.mem_of_mem_filter member)

theorem words_squash (s : List Char) : words (squash s) = words s := by
  by_cases none : words s = []
  · rw [squash, none]
    rfl
  · have kept : (words s).filter (!·.isEmpty) = words s := by
      rw [words_eq_filter, List.filter_filter]
      simp
    rw [words_eq_filter, squash, splitAt_intercalate (by decide) none fun _ member => solid_of_mem_words member, kept]

theorem squash_eq_squash_iff {s t : List Char} : squash s = squash t ↔ words s = words t := by
  constructor
  · intro same
    rw [← words_squash s, same, words_squash]
  · intro same
    rw [squash, same, squash]

theorem flatten_words (s : List Char) : (words s).flatten = s.filter (!isBlank ·) := by
  rw [words_eq_filter, List.flatten_filter_not_isEmpty, flatten_splitAt]

/-- Collapsing blanks takes away no other character. -/
theorem filter_squash (s : List Char) : (squash s).filter (!isBlank ·) = s.filter (!isBlank ·) := by
  rw [← flatten_words, words_squash, flatten_words]

/-- Two characters that are no blanks, next to each other, are in one word. -/
theorem length_words_append {a b : List Char} {c d : Char} (left : isBlank c = false) (right : isBlank d = false) :
    (words (a ++ [c] ++ d :: b)).length + 1 = (words (a ++ [c])).length + (words (d :: b)).length := by
  obtain ⟨front, last, upTo⟩ := splitAt_concat a left
  obtain ⟨first, others, rest⟩ := List.exists_cons_of_ne_nil (@splitAt_ne_nil isBlank b)
  have behind : splitAt isBlank (d :: b) = (d :: first) :: others := by simp [splitAt, right, rest]
  simp only [words_eq_filter, splitAt_append upTo behind, upTo, behind]
  simp
  omega

/-- A blank, or an end, where two texts meet. -/
def Parted (before after : List Char) : Prop :=
  (∀ c ∈ before.getLast?, isBlank c = true) ∨ ∀ c ∈ after.head?, isBlank c = true

/-- A space between two texts is lost in the blanks around it, or parts one word in two. -/
theorem squash_space_iff {before after : List Char} :
    squash (before ++ ' ' :: after) = squash (before ++ after) ↔ Parted before after := by
  have apart : words (before ++ ' ' :: after) = words before ++ words after := words_append_blank before after rfl
  rw [squash_eq_squash_iff, apart]
  rcases List.eq_nil_or_concat before with rfl | ⟨front, c, rfl⟩
  · simp [Parted]
  rw [List.concat_eq_append]
  cases after with
  | nil => simp [Parted]
  | cons d back =>
    cases left : isBlank c with
    | true =>
      have joined : words (front ++ [c] ++ d :: back) = words front ++ words (d :: back) := by
        rw [List.append_assoc, List.singleton_append, words_append_blank front _ left]
      rw [joined, words_append_blank front [] left]
      simp [Parted, left]
    | false =>
      cases right : isBlank d with
      | true =>
        rw [words_append_blank (front ++ [c]) back right, words_cons_blank right]
        simp [Parted, right]
      | false =>
        have lengths := length_words_append (a := front) (b := back) left right
        refine iff_of_false (fun same => ?_) (by simp [Parted, left, right])
        rw [← same, List.length_append] at lengths
        omega

end MarkerGen.Chars
