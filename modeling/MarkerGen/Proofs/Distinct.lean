import MarkerGen.Distinct

/-! The items of a list that are kept as the first of their kind. -/
namespace MarkerGen

theorem firstOfEach_sublist {α : Type} (same : α → α → Bool) (seen items : List α) :
    (firstOfEach same seen items).Sublist items := by
  induction items generalizing seen with
  | nil => exact .slnil
  | cons item rest ih =>
    rw [firstOfEach]
    split
    · exact .cons item (ih seen)
    · exact .cons_cons item (ih _)

theorem firstOfEach_fresh {α : Type} (same : α → α → Bool) (seen items : List α) :
    (∀ item ∈ firstOfEach same seen items, seen.any (same item) = false) ∧
      (firstOfEach same seen items).Pairwise fun a b => same b a = false := by
  induction items generalizing seen with
  | nil => exact ⟨List.forall_mem_nil _, .nil⟩
  | cons item rest ih =>
    rw [firstOfEach]
    split
    · exact ih seen
    next fresh =>
      obtain ⟨later, distinct⟩ := ih (item :: seen)
      have both (other : α) (member : other ∈ firstOfEach same (item :: seen) rest) :
          same other item = false ∧ seen.any (same other) = false := by
        simpa using later other member
      refine ⟨List.forall_mem_cons.mpr ⟨by simpa using fresh, fun other member => (both other member).2⟩, ?_⟩
      exact List.pairwise_cons.mpr ⟨fun other member => (both other member).1, distinct⟩

/-- An item that is the same as itself is the same as one that is kept or one that came before. -/
theorem firstOfEach_covers {α : Type} {same : α → α → Bool} {item : α} (reflexive : same item item = true)
    (seen : List α) {items : List α} (member : item ∈ items) :
    seen.any (same item) = true ∨ ∃ kept ∈ firstOfEach same seen items, same item kept = true := by
  induction items generalizing seen with
  | nil => cases member
  | cons first rest ih =>
    rw [firstOfEach]
    split
    next known =>
      rcases List.mem_cons.mp member with rfl | later
      · exact .inl known
      · exact ih seen later
    next =>
      rcases List.mem_cons.mp member with rfl | later
      · exact .inr ⟨item, List.mem_cons_self, reflexive⟩
      · rcases ih (first :: seen) later with before | ⟨kept, inside, one⟩
        · rcases Bool.or_eq_true_iff.mp before with one | earlier
          · exact .inr ⟨first, List.mem_cons_self, one⟩
          · exact .inl earlier
        · exact .inr ⟨kept, List.mem_cons_of_mem _ inside, one⟩

/-- An item at the end is kept if it is not the same as one that is kept already. -/
theorem firstOfEach_concat {α : Type} (same : α → α → Bool) (seen items : List α) (item : α) :
    firstOfEach same seen (items ++ [item]) = firstOfEach same seen items ++
      if seen.any (same item) || (firstOfEach same seen items).any (same item) then [] else [item] := by
  induction items generalizing seen with
  | nil =>
    rw [List.nil_append, firstOfEach, firstOfEach, firstOfEach, List.any_nil, Bool.or_false, List.nil_append]
    rfl
  | cons first rest ih =>
    rw [List.cons_append, firstOfEach, firstOfEach]
    split
    · exact ih seen
    · rw [ih, List.cons_append, List.any_cons, List.any_cons, Bool.or_assoc, Bool.or_left_comm]

end MarkerGen
