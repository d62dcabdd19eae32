import Mathlib.Data.List.Chain
import MarkerGen.Text

/-! Splitting a text at a separator and joining the pieces again. -/
namespace MarkerGen.Chars

variable {sep : Char → Bool}

theorem splitAt_ne_nil (s : List Char) : splitAt sep s ≠ [] := by
  cases s with
  | nil => simp [splitAt]
  | cons c s =>
    rw [splitAt]
    split
    · simp
    · split <;> simp

theorem length_splitAt (s : List Char) : (splitAt sep s).length = s.countP sep + 1 := by
  induction s with
  | nil => rfl
  | cons c s ih =>
    rw [splitAt, List.countP_cons]
    split
    · rw [List.length_cons, ih]
    · cases pieces : splitAt sep s with
      | nil => exact absurd pieces (splitAt_ne_nil s)
      | cons piece rest => simpa [pieces] using ih

theorem splitAt_of_free {s : List Char} (free : ∀ c ∈ s, sep c = false) : splitAt sep s = [s] := by
  induction s with
  | nil => rfl
  | cons c s ih =>
    have head : ¬ sep c = true := by simp [free c]
    rw [splitAt, if_neg head, ih fun d member => free d (List.mem_cons_of_mem _ member)]

theorem splitAt_append_cons (a b : List Char) {c : Char} (divides : sep c = true) :
    splitAt sep (a ++ c :: b) = splitAt sep a ++ splitAt sep b := by
  induction a with
  | nil => simp [splitAt, divides]
  | cons d a ih =>
    rw [List.cons_append, splitAt, splitAt, ih]
    split
    · rfl
    · cases pieces : splitAt sep a with
      | nil => exact absurd pieces (splitAt_ne_nil a)
      | cons piece rest => rfl

/-- An empty first piece before others means that a separator comes first. -/
theorem sep_head_of_splitAt {s : List Char} {rest : List (List Char)} (split : splitAt sep s = [] :: rest)
    (more : rest ≠ []) : ∃ c below, s = c :: below ∧ sep c = true := by
  cases s with
  | nil =>
    rw [splitAt] at split
    exact absurd (List.cons.inj split).2.symm more
  | cons c below =>
    cases divides : sep c with
    | true => exact ⟨c, below, rfl, divides⟩
    | false =>
      rw [splitAt, if_neg (by simp [divides])] at split
      split at split <;> cases split

theorem splitAt_concat (a : List Char) {c : Char} (plain : sep c = false) :
    ∃ front last, splitAt sep (a ++ [c]) = front ++ [last ++ [c]] := by
  induction a with
  | nil => exact ⟨[], [], splitAt_of_free (by simpa using plain)⟩
  | cons d a ih =>
    obtain ⟨front, last, split⟩ := ih
    rw [List.cons_append, splitAt, split]
    split
    · exact ⟨[] :: front, last, rfl⟩
    · cases front with
      | nil => exact ⟨[], d :: last, rfl⟩
      | cons first front => exact ⟨(d :: first) :: front, last, rfl⟩

theorem free_of_mem_splitAt {s piece : List Char} (member : piece ∈ splitAt sep s) : ∀ c ∈ piece, sep c = false := by
  induction s generalizing piece with
  | nil =>
    rw [splitAt, List.mem_singleton] at member
    simp [member]
  | cons d s ih =>
    rw [splitAt] at member
    split at member
    next =>
      rcases List.mem_cons.mp member with rfl | later
      · simp
      · exact ih later
    next divides =>
      cases pieces : splitAt sep s with
      | nil => exact absurd pieces (splitAt_ne_nil s)
      | cons first rest =>
        rw [pieces] at member ih
        rcases List.mem_cons.mp member with rfl | later
        · intro c inside
          rcases List.mem_cons.mp inside with rfl | tail
          · simpa using divides
          · exact ih List.mem_cons_self c tail
        · exact ih (List.mem_cons_of_mem _ later)

/-- A run of characters between two separators, or at an end of the text, is a piece of it. -/
theorem mem_splitAt {word front back : List Char} (free : ∀ c ∈ word, sep c = false)
    (before : ∀ c ∈ front.getLast?, sep c = true) (after : ∀ c ∈ back.head?, sep c = true) :
    word ∈ splitAt sep (front ++ (word ++ back)) := by
  have rest : word ∈ splitAt sep (word ++ back) := by
    cases back with
    | nil => simp [splitAt_of_free free]
    | cons c back => simp [splitAt_append_cons word back (after c rfl), splitAt_of_free free]
  rcases List.eq_nil_or_concat front with rfl | ⟨front, c, rfl⟩
  · exact rest
  · have divides : sep c = true := before c (by simp)
    simp [splitAt_append_cons front _ divides, rest]

theorem prefix_of_splitAt {s piece : List Char} {others : List (List Char)} (split : splitAt sep s = piece :: others) :
    piece <+: s := by
  induction s generalizing piece others with
  | nil => simp_all [splitAt]
  | cons c s ih =>
    obtain ⟨first, more, inner⟩ := List.exists_cons_of_ne_nil (splitAt_ne_nil s)
    rw [splitAt, inner] at split
    split at split
    next =>
      obtain ⟨rfl, _⟩ := List.cons.inj split
      exact List.nil_prefix
    next =>
      obtain ⟨rfl, _⟩ := List.cons.inj split
      exact List.cons_prefix_cons.mpr ⟨rfl, ih inner⟩

theorem infix_of_mem_splitAt {s piece : List Char} (member : piece ∈ splitAt sep s) : piece <:+: s := by
  induction s generalizing piece with
  | nil => simpa [splitAt] using member
  | cons c s ih =>
    obtain ⟨first, others, split⟩ := List.exists_cons_of_ne_nil (splitAt_ne_nil s)
    rw [split] at ih
    rw [splitAt, split] at member
    have later {piece : List Char} (inside : piece ∈ first :: others) : piece <:+: c :: s :=
      (ih inside).trans (List.suffix_cons c s).isInfix
    split at member
    next =>
      rcases List.mem_cons.mp member with rfl | inside
      · exact List.nil_infix
      · exact later inside
    next =>
      rcases List.mem_cons.mp member with rfl | inside
      · exact (List.cons_prefix_cons.mpr ⟨rfl, prefix_of_splitAt split⟩).isInfix
      · exact later (List.mem_cons_of_mem _ inside)

/-- A word without a mark in it stands on one side of each mark. -/
theorem append_mark_eq {word front back a b : List Char} {mark : Char} (free : mark ∉ word) (nonempty : word ≠ [])
    (split : a ++ mark :: b = front ++ (word ++ back)) :
    (∃ inside, a = front ++ (word ++ inside) ∧ back = inside ++ mark :: b) ∨
      ∃ between, front = a ++ mark :: between ∧ b = between ++ (word ++ back) := by
  rcases List.append_eq_append_iff.mp split with ⟨between, front_eq, rest⟩ | ⟨rest, a_eq, inner⟩
  · right
    cases between with
    | nil =>
      obtain ⟨first, others, rfl⟩ := List.exists_cons_of_ne_nil nonempty
      obtain ⟨rfl, _⟩ := List.cons.inj rest
      simp at free
    | cons c between =>
      obtain ⟨rfl, inner⟩ := List.cons.inj rest
      exact ⟨between, front_eq, inner⟩
  · left
    rcases List.append_eq_append_iff.mp inner with ⟨inside, rest_eq, back_eq⟩ | ⟨others, word_eq, mark_eq⟩
    · exact ⟨inside, by rw [a_eq, rest_eq], back_eq⟩
    · cases others with
      | nil =>
        exact ⟨[], by simp [a_eq, word_eq], by simpa using mark_eq.symm⟩
      | cons c others =>
        obtain ⟨rfl, _⟩ := List.cons.inj mark_eq
        simp [word_eq] at free

/-- A word without a mark in it that stands in a text stands in the part before the mark or in the part after it. -/
theorem infix_append_mark {word b : List Char} {mark : Char} (a : List Char) (free : mark ∉ word)
    (nonempty : word ≠ []) (found : word <:+: a ++ mark :: b) : word <:+: a ∨ word <:+: b := by
  obtain ⟨front, back, split⟩ := found
  rw [List.append_assoc] at split
  rcases append_mark_eq free nonempty split.symm with ⟨inside, rfl, _⟩ | ⟨between, _, rfl⟩
  · exact .inl (List.infix_append' front word inside)
  · exact .inr (List.infix_append' between word back)

theorem prefix_append_mark {word a b : List Char} {mark : Char} (free : mark ∉ word) (nonempty : word ≠ [])
    (found : word <+: a ++ mark :: b) : word <+: a := by
  obtain ⟨back, split⟩ := found
  have split : a ++ mark :: b = [] ++ (word ++ back) := split.symm
  rcases append_mark_eq free nonempty split with ⟨inside, rfl, _⟩ | ⟨between, none, _⟩
  · exact List.prefix_append word inside
  · simp at none

theorem infix_of_infix_append {word s : List Char} (front : List Char) (free : ∀ c ∈ front, c ∉ word)
    (nonempty : word ≠ []) (found : word <:+: front ++ s) : word <:+: s := by
  induction front with
  | nil => exact found
  | cons c front ih =>
    obtain ⟨first, later⟩ := List.forall_mem_cons.mp free
    rcases infix_append_mark [] first nonempty found with outside | inside
    · exact absurd (List.infix_nil.mp outside) nonempty
    · exact ih later inside

theorem splitAt_intercalate {pieces : List (List Char)} {c : Char} (divides : sep c = true) (nonempty : pieces ≠ [])
    (free : ∀ piece ∈ pieces, ∀ d ∈ piece, sep d = false) : splitAt sep ([c].intercalate pieces) = pieces := by
  induction pieces with
  | nil => exact absurd rfl nonempty
  | cons piece rest ih =>
    have first := splitAt_of_free (free piece List.mem_cons_self)
    cases rest with
    | nil => simpa using first
    | cons next rest =>
      have later := ih (by simp) fun p member => free p (List.mem_cons_of_mem _ member)
      rw [List.intercalate_cons_cons, List.append_assoc, List.singleton_append, splitAt_append_cons _ _ divides, first,
        later]
      rfl

/-- Where two texts meet, the last piece of the one goes on in the first piece of the other. -/
theorem splitAt_append {a b last first : List Char} {front others : List (List Char)}
    (left : splitAt sep a = front ++ [last]) (right : splitAt sep b = first :: others) :
    splitAt sep (a ++ b) = front ++ (last ++ first) :: others := by
  induction a generalizing front last with
  | nil =>
    obtain ⟨rfl, rfl⟩ : front = [] ∧ last = [] := by simpa [splitAt, List.singleton_eq_append_iff] using left
    exact right
  | cons c a ih =>
    obtain ⟨piece, pieces, split⟩ := List.exists_cons_of_ne_nil (@splitAt_ne_nil sep a)
    rw [splitAt, split] at left
    rw [List.cons_append, splitAt]
    split at left
    next divides =>
      cases front with
      | nil => simp at left
      | cons _ front =>
        obtain ⟨rfl, below⟩ := List.cons.inj left
        rw [if_pos divides, ih (split.trans below), List.cons_append]
    next divides =>
      rw [if_neg divides]
      cases front with
      | nil =>
        obtain ⟨rfl, rfl⟩ := List.cons.inj left
        rw [@ih piece [] split]
        rfl
      | cons _ front =>
        obtain ⟨rfl, below⟩ := List.cons.inj left
        rw [@ih last (piece :: front) (by rw [split, below]; rfl)]
        rfl

theorem flatten_splitAt (s : List Char) : (splitAt sep s).flatten = s.filter (!sep ·) := by
  induction s with
  | nil => rfl
  | cons c s ih =>
    obtain ⟨piece, pieces, split⟩ := List.exists_cons_of_ne_nil (@splitAt_ne_nil sep s)
    rw [split] at ih
    rw [splitAt, split]
    cases divides : sep c <;> simp [divides, ← ih]

theorem forall_mem_intercalate {p : Char → Prop} {mark : List Char} {pieces : List (List Char)}
    (between : ∀ c ∈ mark, p c) (inside : ∀ piece ∈ pieces, ∀ c ∈ piece, p c) : ∀ c ∈ mark.intercalate pieces, p c := by
  induction pieces with
  | nil => simp
  | cons piece pieces ih =>
    obtain ⟨first, later⟩ := List.forall_mem_cons.mp inside
    cases pieces with
    | nil => simpa using first
    | cons next pieces =>
      rw [List.intercalate_cons_cons]
      exact List.forall_mem_append.mpr ⟨List.forall_mem_append.mpr ⟨first, between⟩, ih later⟩

/-- A separator of two characters does not stand in a text, nor does one begin at its end when another follows. -/
def Unpaired (a b : Char) (s : List Char) : Prop := (s ++ [a]).IsChain fun c d => ¬ (c = a ∧ d = b)

section
variable {a b : Char} {s : List Char}

theorem unpaired_cons {c : Char} :
    Unpaired a b (c :: s) ↔ (∀ d ∈ (s ++ [a]).head?, ¬ (c = a ∧ d = b)) ∧ Unpaired a b s := by
  rw [Unpaired, Unpaired, List.cons_append, List.isChain_cons]

theorem unpaired_of_free (free : a ∉ s) : Unpaired a b s := by
  induction s with
  | nil => exact .singleton a
  | cons c s ih =>
    rw [List.mem_cons, not_or] at free
    exact unpaired_cons.mpr ⟨fun _ _ pair => free.1 pair.1.symm, ih free.2⟩

theorem splitPair_of_unpaired (unpaired : Unpaired a b s) : splitPair a b s = [s] := by
  induction s with
  | nil => rfl
  | cons c s ih =>
    obtain ⟨first, later⟩ := unpaired_cons.mp unpaired
    cases s with
    | nil => rfl
    | cons d s => rw [splitPair, if_neg (first d rfl), ih later]

theorem splitPair_append_pair (unpaired : Unpaired a b s) (rest : List Char) :
    splitPair a b (s ++ a :: b :: rest) = s :: splitPair a b rest := by
  induction s with
  | nil => simp [splitPair]
  | cons c s ih =>
    obtain ⟨first, later⟩ := unpaired_cons.mp unpaired
    have next := ih later
    cases s with
    | nil =>
      rw [List.nil_append] at next
      rw [List.cons_append, List.nil_append, splitPair, if_neg (first a rfl), next]
    | cons d s =>
      rw [List.cons_append] at next
      rw [List.cons_append, List.cons_append, splitPair, if_neg (first d rfl), next]

theorem splitPair_intercalate {pieces : List (List Char)} (nonempty : pieces ≠ [])
    (unpaired : ∀ piece ∈ pieces, Unpaired a b piece) : splitPair a b ([a, b].intercalate pieces) = pieces := by
  induction pieces with
  | nil => exact absurd rfl nonempty
  | cons piece rest ih =>
    obtain ⟨first, later⟩ := List.forall_mem_cons.mp unpaired
    cases rest with
    | nil => simpa using splitPair_of_unpaired first
    | cons next rest =>
      have join : [a, b].intercalate (piece :: next :: rest) =
          piece ++ a :: b :: [a, b].intercalate (next :: rest) := by
        rw [List.intercalate_cons_cons, List.append_assoc]
        rfl
      rw [join, splitPair_append_pair first, ih (by simp) later]

/-- A change of characters that keeps those of the separator in place keeps the pieces. -/
theorem splitPair_map {f : Char → Char} (first : ∀ c, f c = a ↔ c = a) (second : ∀ c, f c = b ↔ c = b) (s : List Char) :
    splitPair a b (s.map f) = (splitPair a b s).map (List.map f) := by
  fun_induction splitPair a b s with
  | case1 => rfl
  | case2 c => rfl
  | case3 c d s pair ih =>
    rw [List.map_cons, List.map_cons, splitPair, if_pos ⟨(first c).mpr pair.1, (second d).mpr pair.2⟩, ih]
    rfl
  | case4 c d s other none ih =>
    rw [List.map_cons] at ih
    rw [List.map_cons, List.map_cons, splitPair, if_neg (by rwa [first, second]), ih, none]
    rfl
  | case5 c d s other piece pieces split ih =>
    rw [List.map_cons] at ih
    rw [List.map_cons, List.map_cons, splitPair, if_neg (by rwa [first, second]), ih, split]
    rfl

end

end MarkerGen.Chars

namespace MarkerGen.Text

theorem toList_join (sep : String) (pieces : List String) :
    (join sep pieces).toList = sep.toList.intercalate (pieces.map String.toList) := by
  induction pieces with
  | nil => rfl
  | cons piece rest ih =>
    cases rest with
    | nil => simp [join]
    | cons next rest =>
      rw [join, String.toList_append, String.toList_append, ih]
      simp only [List.map_cons]
      rw [List.intercalate_cons_cons]

end MarkerGen.Text
