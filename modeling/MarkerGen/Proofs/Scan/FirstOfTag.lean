import Mathlib.Data.List.Induction
import Mathlib.Data.List.Range
import MarkerGen.Proofs.Distinct
import MarkerGen.Scan

/-! The matches of a unit. A token gives one exactly if it is a marker and no token before it on the
same declaration is a marker of the same tag. A scan that gives one match at a time comes to an end
and gives just these, because the tags it keeps are those of the tokens it has read. -/
namespace MarkerGen.Scan

/-- The marker at a position among the tokens of a declaration, if it is the first one of its tag. -/
def firstAt? (lead : String) (tokens : List String) (position : Nat) : Option Marker :=
  (tokens[position]?.bind (marker? lead)).filter fun marker =>
    ((tokens.take position).filterMap (marker? lead)).all (·.tag != marker.tag)

/-- The markers at positions from `position` on that are the first ones of their tags. -/
def firstsFrom (lead : String) (tokens : List String) (position : Nat) : List Marker :=
  (List.range' position (tokens.length - position)).filterMap (firstAt? lead tokens)

def firsts (lead : String) (tokens : List String) : List Marker :=
  (List.range tokens.length).filterMap (firstAt? lead tokens)

def firstMatches (lead : String) (u : SourceUnit) : List Match :=
  u.entries.flatMap fun declared => (firsts lead declared.decl.annotations).map (⟨declared, ·⟩)

section
variable {lead token : String} {tokens : List String} {position : Nat} {marker : Marker}

theorem firstAt?_eq (found : tokens[position]? = some token) :
    firstAt? lead tokens position = (marker? lead token).filter fun marker =>
      ((tokens.take position).filterMap (marker? lead)).all (·.tag != marker.tag) := by
  rw [firstAt?, found, Option.bind_some]

theorem firstsFrom_of_end (ended : tokens[position]? = none) : firstsFrom lead tokens position = [] := by
  rw [firstsFrom, Nat.sub_eq_zero_of_le (List.getElem?_eq_none_iff.mp ended)]
  rfl

theorem firstsFrom_next (more : tokens[position]? = some token) :
    firstsFrom lead tokens position =
      (firstAt? lead tokens position).toList ++ firstsFrom lead tokens (position + 1) := by
  have inside := (List.getElem?_eq_some_iff.mp more).1
  obtain ⟨rest, long⟩ : ∃ rest, tokens.length - position = rest + 1 := ⟨tokens.length - position - 1, by omega⟩
  have shorter : tokens.length - (position + 1) = rest := by omega
  rw [firstsFrom, long, List.range'_succ, List.filterMap_cons, firstsFrom, shorter]
  cases firstAt? lead tokens position <;> rfl

theorem firstsFrom_zero (lead : String) (tokens : List String) : firstsFrom lead tokens 0 = firsts lead tokens := by
  rw [firstsFrom, firsts, Nat.sub_zero, List.range_eq_range']

end

namespace Cursor

/-- Whether the tags kept are those of the markers read. -/
def Tracks (lead : String) (u : SourceUnit) (c : Cursor) : Prop :=
  ∀ declared, u.get? c.declaration = some declared → ∀ tag, tag ∈ c.seen ↔
    ∃ marker ∈ (declared.decl.annotations.take c.token).filterMap (marker? lead), marker.tag = tag

/-- The first matches from a cursor on. -/
def ahead (lead : String) (u : SourceUnit) (c : Cursor) : List Match :=
  match u.get? c.declaration with
  | none => []
  | some declared => (firstsFrom lead declared.decl.annotations c.token).map (⟨declared, ·⟩) ++
      (u.entries.drop (c.declaration + 1)).flatMap fun later =>
        (firsts lead later.decl.annotations).map (⟨later, ·⟩)

section
variable {lead token : String} {u : SourceUnit} {c : Cursor} {declared : Declared} {marker : Marker}

theorem tracks_fresh (lead : String) (u : SourceUnit) (declaration : Nat) : Tracks lead u ⟨declaration, 0, []⟩ := by
  intro declared _ tag
  simp

theorem getElem?_entries (u : SourceUnit) (id : Nat) : u.entries[id]? = u.get? id := by
  simp [SourceUnit.entries, SourceUnit.get?, Function.comp_def]

theorem ahead_of_missing (missing : u.get? c.declaration = none) : c.ahead lead u = [] := by
  rw [ahead, missing]

theorem ahead_fresh (lead : String) (u : SourceUnit) (declaration : Nat) : ahead lead u ⟨declaration, 0, []⟩ =
    (u.entries.drop declaration).flatMap fun later => (firsts lead later.decl.annotations).map (⟨later, ·⟩) := by
  rw [List.drop_eq_getElem?_toList_append, getElem?_entries, ahead]
  cases found : u.get? declaration with
  | none =>
    have ended : u.entries.length ≤ declaration := by
      rw [← List.getElem?_eq_none_iff, getElem?_entries, found]
    rw [List.drop_eq_nil_of_le (Nat.le_succ_of_le ended)]
    rfl
  | some declared =>
    dsimp only
    rw [firstsFrom_zero, Option.toList_some, List.singleton_append, List.flatMap_cons]

theorem ahead_of_end (found : u.get? c.declaration = some declared)
    (ended : declared.decl.annotations[c.token]? = none) : c.ahead lead u = ahead lead u ⟨c.declaration + 1, 0, []⟩ := by
  rw [ahead_fresh, ahead, found]
  dsimp only
  rw [firstsFrom_of_end ended]
  rfl

theorem ahead_of_token (found : u.get? c.declaration = some declared)
    (more : declared.decl.annotations[c.token]? = some token) (seen : List Tag) :
    c.ahead lead u = (firstAt? lead declared.decl.annotations c.token).toList.map (⟨declared, ·⟩) ++
      ahead lead u ⟨c.declaration, c.token + 1, seen⟩ := by
  rw [ahead, ahead, found]
  dsimp only
  rw [firstsFrom_next more, List.map_append, List.append_assoc]

theorem Tracks.firstAt?_eq (tracks : c.Tracks lead u) (found : u.get? c.declaration = some declared)
    (more : declared.decl.annotations[c.token]? = some token) :
    firstAt? lead declared.decl.annotations c.token =
      (marker? lead token).filter fun marker => !c.seen.contains marker.tag := by
  rw [Scan.firstAt?_eq more]
  congr 1
  funext marker
  rw [Bool.eq_iff_iff, Bool.not_eq_true', ← Bool.not_eq_true, List.contains_iff_mem, tracks declared found,
    List.all_eq_true]
  simp only [bne_iff_ne, ne_eq, not_exists, not_and]

theorem Tracks.read (tracks : c.Tracks lead u) (found : u.get? c.declaration = some declared)
    (more : declared.decl.annotations[c.token]? = some token) {seen : List Tag}
    (kept : ∀ tag, tag ∈ seen ↔ tag ∈ c.seen ∨ ∃ marker, marker? lead token = some marker ∧ marker.tag = tag) :
    Tracks lead u ⟨c.declaration, c.token + 1, seen⟩ := by
  intro other same tag
  obtain rfl : declared = other := Option.some.inj (found.symm.trans same)
  dsimp only
  rw [kept, tracks declared found, List.take_add_one, more, List.filterMap_append]
  simp [or_and_right, exists_or]

/-- A step of the scan gives the first match ahead of it, and leaves the others ahead. -/
theorem next?_ahead (tracks : c.Tracks lead u) :
    match c.next? lead u with
    | none => c.ahead lead u = []
    | some (m, after) => c.ahead lead u = m :: after.ahead lead u ∧ after.Tracks lead u := by
  fun_induction next? lead u c with
  | case1 c missing => exact ahead_of_missing missing
  | case2 c declared found ended ih =>
    rw [ahead_of_end found ended]
    exact ih (tracks_fresh lead u _)
  | case3 c declared found token more plain ih =>
    rw [ahead_of_token found more c.seen, tracks.firstAt?_eq found more, plain]
    exact ih (tracks.read found more (by simp [plain]))
  | case4 c declared found token more marker read repeated ih =>
    rw [ahead_of_token found more c.seen, tracks.firstAt?_eq found more, read, Option.filter_some, repeated]
    refine ih (tracks.read found more fun tag => ⟨.inl, ?_⟩)
    rintro (kept | ⟨other, same, rfl⟩)
    · exact kept
    · obtain rfl : marker = other := Option.some.inj (read.symm.trans same)
      exact List.contains_iff_mem.mp repeated
  | case5 c declared found token more marker read fresh =>
    refine ⟨?_, tracks.read found more (by simp [read, or_comm, eq_comm])⟩
    rw [ahead_of_token found more (marker.tag :: c.seen), tracks.firstAt?_eq found more, read, Option.filter_some,
      if_pos (by simpa using fresh)]
    rfl

theorem drain_eq_ahead (tracks : c.Tracks lead u) : c.drain lead u = c.ahead lead u := by
  fun_induction drain lead u c with
  | case1 c ended =>
    have step := next?_ahead tracks
    rw [ended] at step
    exact step.symm
  | case2 c m after next ih =>
    have step := next?_ahead tracks
    rw [next] at step
    rw [step.1, ih step.2]

end

end Cursor

/-! ### Tokens that are no markers -/

theorem firsts_concat (lead : String) (tokens : List String) (token : String) :
    firsts lead (tokens ++ [token]) = firsts lead tokens ++ ((marker? lead token).filter fun marker =>
      (tokens.filterMap (marker? lead)).all (·.tag != marker.tag)).toList := by
  have earlier : ∀ position ∈ List.range tokens.length,
      firstAt? lead (tokens ++ [token]) position = firstAt? lead tokens position := by
    intro position inside
    have less := List.mem_range.mp inside
    rw [firstAt?, firstAt?, List.getElem?_append_left less, List.take_append_of_le_length (Nat.le_of_lt less)]
  have last : firstAt? lead (tokens ++ [token]) tokens.length = (marker? lead token).filter fun marker =>
      (tokens.filterMap (marker? lead)).all (·.tag != marker.tag) := by
    rw [firstAt?_eq List.getElem?_concat_length, List.take_left]
  rw [firsts, List.length_append, List.length_singleton, List.range_succ, List.filterMap_append,
    List.filterMap_congr earlier, ← firsts, List.filterMap_cons, last]
  cases (marker? lead token).filter _ <;> rfl

/-- The first markers of a declaration are those of the list of its markers, whatever else is
written between them. -/
theorem firsts_eq_firstOfEach (lead : String) (tokens : List String) :
    firsts lead tokens = firstOfEach sameTag [] (tokens.filterMap (marker? lead)) := by
  induction tokens using List.reverseRecOn with
  | nil => rfl
  | append_singleton tokens token ih =>
    rw [firsts_concat, ih, List.filterMap_append]
    cases read : marker? lead token with
    | none => simp [read]
    | some marker =>
      have known : (firstOfEach sameTag [] (tokens.filterMap (marker? lead))).any (sameTag marker) =
          (tokens.filterMap (marker? lead)).any (sameTag marker) := by
        rw [Bool.eq_iff_iff, List.any_eq_true, List.any_eq_true]
        constructor
        · rintro ⟨kept, member, same⟩
          exact ⟨kept, (firstOfEach_sublist sameTag [] _).subset member, same⟩
        · rintro ⟨other, member, same⟩
          have reflexive : sameTag other other = true := beq_self_eq_true other.tag
          rcases firstOfEach_covers reflexive [] member with none | found
          · cases none
          · obtain ⟨kept, inside, one⟩ := found
            refine ⟨kept, inside, ?_⟩
            rw [sameTag, beq_iff_eq] at same one ⊢
            exact same.trans one
      rw [List.filterMap_cons, read, List.filterMap_nil]
      dsimp only
      rw [firstOfEach_concat, known, List.any_nil, Bool.false_or]
      have fresh : (tokens.filterMap (marker? lead)).all (·.tag != marker.tag) =
          !(tokens.filterMap (marker? lead)).any (sameTag marker) := by
        rw [List.not_any_eq_all_not]
        congr 1
        funext other
        rw [sameTag, bne_comm]
        rfl
      rw [Option.filter_some, fresh]
      cases (tokens.filterMap (marker? lead)).any (sameTag marker) <;> rfl

/-- The declarations with the tokens alone that are markers. -/
def unplain (lead : String) (u : SourceUnit) : SourceUnit :=
  { u with decls := u.decls.map fun d =>
      { d with annotations := d.annotations.filter fun token => (marker? lead token).isSome } }

/-- What a match gives: the place of a declaration and a marker. -/
def given (m : Match) : Nat × Marker := (m.declared.id, m.marker)

theorem matchesOf_eq_firstMatches (lead : String) (u : SourceUnit) : matchesOf lead u = firstMatches lead u := by
  simp only [matchesOf, firstMatches, markers, firsts_eq_firstOfEach]

theorem entries_unplain (lead : String) (u : SourceUnit) : (unplain lead u).entries = u.entries.map fun declared =>
    { declared with decl := { declared.decl with
        annotations := declared.decl.annotations.filter fun token => (marker? lead token).isSome } } := by
  simp [SourceUnit.entries, unplain, List.zipIdx_map, Function.comp_def]

theorem given_unplain (lead : String) (u : SourceUnit) :
    (firstMatches lead (unplain lead u)).map given = (firstMatches lead u).map given := by
  have unchanged (tokens : List String) :
      firsts lead (tokens.filter fun token => (marker? lead token).isSome) = firsts lead tokens := by
    rw [firsts_eq_firstOfEach, firsts_eq_firstOfEach, List.filterMap_filter]
    congr 2
    funext token
    cases marker? lead token <;> rfl
  rw [firstMatches, entries_unplain, firstMatches, List.flatMap_map, List.map_flatMap, List.map_flatMap]
  simp only [unchanged, List.map_map]
  rfl

/-- A scan comes to an end and gives the first marker of each tag of each declaration, in order; and
tokens that are no markers change nothing. -/
theorem drain_first_of_tag (lead : String) (u : SourceUnit) :
    Cursor.start.drain lead u = firstMatches lead u ∧ matchesOf lead u = firstMatches lead u ∧
      (matchesOf lead (unplain lead u)).map given = (matchesOf lead u).map given := by
  have begins : Cursor.start.Tracks lead u := Cursor.tracks_fresh lead u 0
  refine ⟨?_, matchesOf_eq_firstMatches lead u, ?_⟩
  · rw [Cursor.drain_eq_ahead begins, Cursor.start, Cursor.ahead_fresh]
    rfl
  · rw [matchesOf_eq_firstMatches, matchesOf_eq_firstMatches, given_unplain]

end MarkerGen.Scan
