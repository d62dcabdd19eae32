import MarkerGen.Proofs.Marker.Grammar

/-! Where an argument list is divided: at the separators outside of all quotes and brackets, and at no others. The angle
brackets of a list count as brackets if they pair up. -/
namespace MarkerGen.Marker

def Nesting.after (useAngles : Bool) (n : Nesting) (s : List Char) : Nesting := s.foldl (Nesting.step useAngles) n

/-- A character that does not change the nesting. -/
def Calm (c : Char) : Prop := c ∉ ['"', '(', '[', '\x7b', ')', ']', '\x7d', '<', '>']

theorem isTop_iff {n : Nesting} : n.isTop = true ↔ n.brackets = 0 ∧ n.angles = 0 ∧ n.quoted = false := by
  simp [Nesting.isTop, and_assoc]

theorem step_calm {useAngles : Bool} {c : Char} (calm : Calm c) {n : Nesting} (top : n.isTop = true) :
    (n.step useAngles c).isTop = true := by
  obtain ⟨brackets, angles, quoted⟩ := isTop_iff.mp top
  simp only [Calm, List.mem_cons, List.not_mem_nil, or_false, not_or] at calm
  simp [Nesting.step, isTop_iff, calm, brackets, angles, quoted]

section
variable {s front back : List Char}

theorem splitNested_cons (useAngles : Bool) (sep : Char) (n : Nesting) (c : Char) (s : List Char) :
    splitNested useAngles sep n (c :: s) = (splitNested useAngles sep (n.step useAngles c) s).map fun pieces =>
      if c = sep ∧ n.isTop then [] :: pieces else (c :: pieces.head?.getD []) :: pieces.tail := by
  rw [splitNested]
  cases splitNested useAngles sep (n.step useAngles c) s with
  | none => rfl
  | some pieces =>
    dsimp only [Option.map_some]
    split
    · rfl
    · cases pieces <;> rfl

theorem splitNested_ne_nil {useAngles : Bool} {sep : Char} {n : Nesting} {pieces : List (List Char)}
    (split : splitNested useAngles sep n s = some pieces) : pieces ≠ [] := by
  cases s with
  | nil =>
    rw [splitNested] at split
    split at split <;> cases split
    simp
  | cons c s =>
    rw [splitNested_cons] at split
    obtain ⟨more, _, rfl⟩ := Option.map_eq_some_iff.mp split
    split <;> simp

/-- Angle brackets that are left open are all that a division can fail for. -/
theorem splitNested_isSome (useAngles : Bool) (sep : Char) (n : Nesting) (s : List Char) :
    (splitNested useAngles sep n s).isSome = ((n.after useAngles s).angles == 0) := by
  induction s generalizing n with
  | nil =>
    rw [splitNested, Nesting.after, List.foldl_nil]
    split <;> simp_all
  | cons c s ih =>
    rw [splitNested_cons, Option.isSome_map, ih]
    rfl

theorem intercalate_cons_head (sep c : Char) (piece : List Char) (pieces : List (List Char)) :
    [sep].intercalate ((c :: piece) :: pieces) = c :: [sep].intercalate (piece :: pieces) := by
  cases pieces <;> simp

section
variable {useAngles : Bool} {sep : Char} {n : Nesting} {a b pieces : List (List Char)}

theorem intercalate_splitNested (split : splitNested useAngles sep n s = some pieces) : [sep].intercalate pieces = s := by
  induction s generalizing n pieces with
  | nil =>
    rw [splitNested] at split
    split at split <;> cases split
    rfl
  | cons c s ih =>
    rw [splitNested_cons] at split
    obtain ⟨more, later, rfl⟩ := Option.map_eq_some_iff.mp split
    obtain ⟨piece, rest, rfl⟩ := List.exists_cons_of_ne_nil (splitNested_ne_nil later)
    split
    next divides => simp [← ih later, divides.1]
    next => rw [List.head?_cons, Option.getD_some, List.tail_cons, intercalate_cons_head, ih later]

/-- A division is at a separator outside of all quotes and brackets. -/
theorem splitNested_divided (split : splitNested useAngles sep n s = some (a ++ b)) (first : a ≠ []) (second : b ≠ []) :
    s = [sep].intercalate a ++ sep :: [sep].intercalate b ∧
      (n.after useAngles ([sep].intercalate a)).isTop = true := by
  induction s generalizing n a with
  | nil =>
    rw [splitNested] at split
    split at split
    · have short := congrArg List.length (Option.some.inj split)
      have := List.length_pos_iff.mpr first
      have := List.length_pos_iff.mpr second
      simp only [List.length_singleton, List.length_append] at short
      omega
    · cases split
  | cons c s ih =>
    rw [splitNested_cons] at split
    obtain ⟨more, later, same⟩ := Option.map_eq_some_iff.mp split
    obtain ⟨piece, a, rfl⟩ := List.exists_cons_of_ne_nil first
    rw [List.cons_append] at same
    split at same
    next divides =>
      obtain ⟨rfl, outer⟩ := divides
      obtain ⟨rfl, rfl⟩ := List.cons.inj same
      cases a with
      | nil =>
        rw [List.nil_append] at later
        rw [List.intercalate_singleton, intercalate_splitNested later]
        exact ⟨rfl, outer⟩
      | cons next a =>
        obtain ⟨parts, top⟩ := ih later (List.cons_ne_nil _ _)
        rw [List.intercalate_cons_cons, List.nil_append, List.singleton_append]
        exact ⟨congrArg (c :: ·) parts, top⟩
    next =>
      obtain ⟨head, rest, rfl⟩ := List.exists_cons_of_ne_nil (splitNested_ne_nil later)
      obtain ⟨rfl, rfl⟩ := List.cons.inj same
      obtain ⟨parts, top⟩ := ih (a := head :: a) later (List.cons_ne_nil _ _)
      rw [List.head?_cons, Option.getD_some, intercalate_cons_head]
      exact ⟨congrArg (c :: ·) parts, top⟩

/-- A separator outside of all quotes and brackets divides. -/
theorem two_le_length_splitNested (split : splitNested useAngles sep n (front ++ sep :: back) = some pieces)
    (top : (n.after useAngles front).isTop = true) : 2 ≤ pieces.length := by
  induction front generalizing n pieces with
  | nil =>
    rw [List.nil_append, splitNested_cons] at split
    obtain ⟨more, later, rfl⟩ := Option.map_eq_some_iff.mp split
    have some := List.length_pos_iff.mpr (splitNested_ne_nil later)
    rw [if_pos ⟨rfl, top⟩, List.length_cons]
    omega
  | cons c front ih =>
    rw [List.cons_append, splitNested_cons] at split
    obtain ⟨more, later, rfl⟩ := Option.map_eq_some_iff.mp split
    have several := ih later top
    split
    · rw [List.length_cons]
      omega
    · rw [List.length_cons, List.length_tail]
      omega

end

theorem splitNested_calm {useAngles : Bool} {sep : Char} {n : Nesting} {pieces : List (List Char)}
    (calm : ∀ c ∈ front, Calm c ∧ c ≠ sep) (top : n.isTop = true)
    (split : splitNested useAngles sep n (front ++ sep :: back) = some pieces) :
    ∃ piece rest, pieces = front :: piece :: rest := by
  induction front generalizing n pieces with
  | nil =>
    rw [List.nil_append, splitNested_cons] at split
    obtain ⟨more, later, rfl⟩ := Option.map_eq_some_iff.mp split
    obtain ⟨piece, rest, rfl⟩ := List.exists_cons_of_ne_nil (splitNested_ne_nil later)
    exact ⟨piece, rest, by rw [if_pos ⟨rfl, top⟩]⟩
  | cons c front ih =>
    obtain ⟨first, others⟩ := List.forall_mem_cons.mp calm
    rw [List.cons_append, splitNested_cons] at split
    obtain ⟨more, later, rfl⟩ := Option.map_eq_some_iff.mp split
    obtain ⟨piece, rest, rfl⟩ := ih others (step_calm first.1 top) later
    exact ⟨piece, rest, by rw [if_neg fun divides => first.2 divides.1]; rfl⟩

/-- Whether the angle brackets of a list pair up, so that they count as brackets. -/
def paired (s : List Char) : Bool := (Nesting.start.after true s).angles == 0

theorem angles_after_false (n : Nesting) (s : List Char) : (n.after false s).angles = n.angles := by
  induction s generalizing n with
  | nil => rfl
  | cons c s ih =>
    have step : (n.step false c).angles = n.angles := by
      unfold Nesting.step
      dsimp only
      repeat' split
      all_goals simp_all
    exact (ih _).trans step

theorem splitNested_splitTop (sep : Char) (s : List Char) :
    splitNested (paired s) sep .start s = some (splitTop sep s) := by
  have withAngles := splitNested_isSome true sep .start s
  rw [← paired] at withAngles
  unfold splitTop
  cases pairs : paired s with
  | true =>
    rw [pairs] at withAngles
    obtain ⟨pieces, split⟩ := Option.isSome_iff_exists.mp withAngles
    rw [split]
  | false =>
    have without : (splitNested false sep .start s).isSome = true := by
      rw [splitNested_isSome, angles_after_false]
      rfl
    rw [pairs] at withAngles
    obtain ⟨pieces, split⟩ := Option.isSome_iff_exists.mp without
    rw [Option.isSome_eq_false_iff.mp withAngles |> Option.isNone_iff_eq_none.mp, split]
    rfl

/-- A list is left whole if none of its separators stands outside of the quotes and brackets in it. -/
theorem splitTop_eq_singleton_iff (sep : Char) (s : List Char) : splitTop sep s = [s] ↔
    ∀ front back, s = front ++ sep :: back → (Nesting.start.after (paired s) front).isTop = false := by
  have split := splitNested_splitTop sep s
  constructor
  · intro whole front back same
    rw [whole] at split
    by_contra top
    have several := two_le_length_splitNested (same ▸ split) (by simpa [← same] using top)
    simp at several
  · intro shielded
    obtain ⟨piece, rest, pieces⟩ := List.exists_cons_of_ne_nil (splitNested_ne_nil split)
    rw [pieces] at split ⊢
    have joined := intercalate_splitNested split
    cases rest with
    | nil => rw [← joined, List.intercalate_singleton]
    | cons next rest =>
      obtain ⟨parts, top⟩ := splitNested_divided (a := [piece]) split (List.cons_ne_nil _ _) (List.cons_ne_nil next rest)
      rw [shielded _ _ parts] at top
      cases top

theorem splitTop_calm {sep : Char} (calm : ∀ c ∈ front, Calm c ∧ c ≠ sep) (back : List Char) :
    ∃ piece rest, splitTop sep (front ++ sep :: back) = front :: piece :: rest :=
  splitNested_calm calm rfl (splitNested_splitTop sep (front ++ sep :: back))

end

end MarkerGen.Marker
