import Mathlib.Data.List.Basic
import Mathlib.Data.List.TakeWhile
import MarkerGen.Text

/-! The ends of a text: trimming blanks, taking off a lead, and cutting at the first occurrence of
a character. -/
namespace MarkerGen.Chars

/-- No blank at either end. -/
structure Trimmed (s : List Char) : Prop where
  first : ∀ c ∈ s.head?, isBlank c = false
  last : ∀ c ∈ s.getLast?, isBlank c = false

def Blank (s : List Char) : Prop := ∀ c ∈ s, isBlank c = true

instance (s : List Char) : Decidable (Blank s) := List.decidableBAll (isBlank · = true) s

theorem trimmed_nil : Trimmed [] := ⟨by simp, by simp⟩

theorem trimmed_of_solid {s : List Char} (solid : ∀ c ∈ s, isBlank c = false) : Trimmed s where
  first c head := solid c (List.mem_of_mem_head? head)
  last c end_ := solid c (List.mem_of_getLast? end_)

theorem trimmed_between {a b : Char} (first : isBlank a = false) (last : isBlank b = false) (s : List Char) :
    Trimmed (a :: (s ++ [b])) := by
  constructor
  · simpa using first
  · rw [← List.cons_append, List.getLast?_concat]
    simpa using last

theorem Trimmed.append {s : List Char} (trimmed : Trimmed s) (nonempty : s ≠ []) {front : List Char}
    (solid : ∀ c ∈ front.head?, isBlank c = false) : Trimmed (front ++ s) := by
  constructor
  · cases front with
    | nil => exact trimmed.first
    | cons c front => simpa using solid
  · rw [List.getLast?_append_of_ne_nil _ nonempty]
    exact trimmed.last

theorem blank_of_trimmed {s rest : List Char} (trimmed : Trimmed (s ++ rest)) (blank : Blank rest) : rest = [] := by
  by_contra nonempty
  obtain ⟨front, c, rfl⟩ := List.eq_nil_or_concat rest |>.resolve_left nonempty
  have solid : isBlank c = false := trimmed.last c (by simp)
  simp [blank c (by simp)] at solid

theorem all_isBlank_iff {s : List Char} : s.all isBlank = true ↔ Blank s := List.all_eq_true

theorem dropWhile_blank {s rest : List Char} (blank : Blank s) (solid : ∀ c ∈ rest.head?, isBlank c = false) :
    (s ++ rest).dropWhile isBlank = rest := by
  rw [List.dropWhile_append_of_pos blank]
  cases rest with
  | nil => rfl
  | cons c rest => simp [solid c rfl]

theorem trim_of_blank {front s back : List Char} (before : Blank front) (trimmed : Trimmed s) (after : Blank back) :
    trim (front ++ (s ++ back)) = s := by
  cases s with
  | nil =>
    have blank : Blank (front ++ back) := by
      intro c member
      rcases List.mem_append.mp member with first | second
      · exact before c first
      · exact after c second
    have gone := @dropWhile_blank _ [] blank (by simp)
    rw [List.append_nil] at gone
    simp [trim, trimLeft, trimRight, gone]
  | cons c s =>
    have left : trimLeft (front ++ (c :: s ++ back)) = c :: s ++ back :=
      dropWhile_blank before (by simpa using trimmed.first c rfl)
    have right : (back.reverse ++ (c :: s).reverse).dropWhile isBlank = (c :: s).reverse := by
      apply dropWhile_blank
      · simpa [Blank] using after
      · rw [List.head?_reverse]
        exact trimmed.last
    rw [trim, left, trimRight, List.reverse_append, right, List.reverse_reverse]

theorem trim_of_trimmed {s : List Char} (trimmed : Trimmed s) : trim s = s := by
  simpa using @trim_of_blank [] s [] (by simp [Blank]) trimmed (by simp [Blank])

theorem dropWhile_first {s : List Char} {c : Char} (first : c ∈ (s.dropWhile isBlank).head?) : isBlank c = false := by
  have stops := List.head?_dropWhile_not isBlank s
  rw [Option.mem_def.mp first] at stops
  exact stops

theorem trimRight_append (s : List Char) : s = trimRight s ++ (s.reverse.takeWhile isBlank).reverse := by
  rw [trimRight, ← List.reverse_append, List.takeWhile_append_dropWhile, List.reverse_reverse]

/-- Trimming takes blanks off both ends and leaves none there. -/
theorem trim_parts (s : List Char) :
    ∃ front back, s = front ++ (trim s ++ back) ∧ Blank front ∧ Blank back ∧ Trimmed (trim s) := by
  have split := trimRight_append (trimLeft s)
  refine ⟨s.takeWhile isBlank, ((trimLeft s).reverse.takeWhile isBlank).reverse, ?_, ?_, ?_, ?_, ?_⟩
  · rw [trim, ← split, trimLeft, List.takeWhile_append_dropWhile]
  · intro c member
    exact List.mem_takeWhile_imp member
  · intro c member
    exact List.mem_takeWhile_imp (List.mem_reverse.mp member)
  · intro c first
    apply dropWhile_first (s := s)
    rw [← trimLeft, split, List.head?_append, ← trim, Option.mem_def.mp first]
    rfl
  · intro c last
    rw [trim, trimRight, List.getLast?_reverse] at last
    exact dropWhile_first last

theorem trimmed_trim (s : List Char) : Trimmed (trim s) := by
  obtain ⟨_, _, _, _, _, trimmed⟩ := trim_parts s
  exact trimmed

theorem mem_trim_iff {c : Char} (solid : isBlank c = false) (s : List Char) : c ∈ trim s ↔ c ∈ s := by
  obtain ⟨front, back, split, before, after, _⟩ := trim_parts s
  constructor
  · intro member
    rw [split]
    simp [member]
  · intro member
    rw [split] at member
    simp only [List.mem_append] at member
    rcases member with first | inside | last
    · simp [before c first] at solid
    · exact inside
    · simp [after c last] at solid

theorem afterLead?_eq_some_iff {lead s rest : List Char} : afterLead? lead s = some rest ↔ s = lead ++ rest := by
  induction lead generalizing s with
  | nil => simp [afterLead?, eq_comm]
  | cons l lead ih =>
    cases s with
    | nil => simp [afterLead?]
    | cons c s =>
      by_cases same : l = c
      · simp [afterLead?, same, ih]
      · simp [afterLead?, same, Ne.symm same]

theorem afterLead?_eq_none_iff {lead s : List Char} : afterLead? lead s = none ↔ ¬ lead <+: s := by
  rw [Option.eq_none_iff_forall_ne_some]
  simp only [ne_eq, afterLead?_eq_some_iff, List.IsPrefix, not_exists]
  constructor
  · intro none rest same
    exact none rest same.symm
  · intro none rest same
    exact none rest same.symm

theorem startsWith_iff {lead s : List Char} : startsWith lead s = true ↔ lead <+: s := by
  rw [startsWith, Option.isSome_iff_ne_none, ne_eq, afterLead?_eq_none_iff, not_not]

theorem contains_iff {needle s : List Char} : contains needle s = true ↔ needle <:+: s := by
  induction s with
  | nil => cases needle <;> simp [contains, breakOn?]
  | cons c s ih =>
    rw [List.infix_cons_iff, ← ih, ← startsWith_iff, contains, contains, startsWith, breakOn?]
    cases afterLead? needle (c :: s) <;> simp

theorem dropLeads_of_unled {lead s : List Char} (other : ¬ lead <+: s) : dropLeads lead s = s := by
  rw [dropLeads, afterLead?_eq_none_iff.mpr other]

theorem breakOn?_append {mark : Char} {before : List Char} (free : mark ∉ before) (after : List Char) :
    breakOn? [mark] (before ++ mark :: after) = some (before, after) := by
  induction before with
  | nil => simp [breakOn?, afterLead?]
  | cons c before ih =>
    simp only [List.mem_cons, not_or] at free
    simp [breakOn?, afterLead?, free.1, ih free.2]

theorem breakOn?_eq_none_iff {mark : Char} {s : List Char} : breakOn? [mark] s = none ↔ mark ∉ s := by
  induction s with
  | nil => simp [breakOn?]
  | cons c s ih =>
    by_cases same : mark = c
    · simp [breakOn?, afterLead?, same]
    · simp [breakOn?, afterLead?, same, ih]

theorem breakOn?_eq_some_iff {mark : Char} {s before after : List Char} :
    breakOn? [mark] s = some (before, after) ↔ s = before ++ mark :: after ∧ mark ∉ before := by
  constructor
  · intro found
    induction s generalizing before with
    | nil => simp [breakOn?] at found
    | cons c s ih =>
      by_cases same : mark = c
      · simp [breakOn?, afterLead?, same] at found
        simp [found, same]
      · simp only [breakOn?, afterLead?, same, if_false, Option.map_eq_some_iff, Prod.exists, Prod.mk.injEq] at found
        obtain ⟨front, _, inside, rfl, rfl⟩ := found
        obtain ⟨rfl, free⟩ := ih inside
        simp [same, free]
  · rintro ⟨rfl, free⟩
    exact breakOn?_append free after

end MarkerGen.Chars
