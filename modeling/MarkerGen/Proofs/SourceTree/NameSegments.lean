import MarkerGen.Proofs.Chars.Ends
import MarkerGen.Proofs.Chars.Split
import MarkerGen.SourceTree.QualifiedName

/-! Qualified names are split into the segments that they were joined from. A segment may have template
arguments with any nesting of `::` in them, since a colon divides only where as many angle brackets have
been closed as opened. -/
namespace MarkerGen.QualifiedName
open Chars

/-- How many more angle brackets a text opens than it closes. -/
def opened (text : List Char) : Int := text.count '<' - text.count '>'

@[simp] theorem opened_nil : opened [] = 0 := rfl

theorem opened_append (a b : List Char) : opened (a ++ b) = opened a + opened b := by
  simp [opened]
  omega

/-- A segment as it stands between `::`. It closes as many angle brackets as it opens, and all its colons
stand inside of some. That none is closed before it is opened need not be asked for. -/
structure Segment (text : List Char) : Prop where
  nonempty : text ≠ []
  trimmed : Trimmed text
  closed : opened text = 0
  inside : ∀ front back, text = front ++ ':' :: back → opened front ≠ 0

theorem segment_iff {text : List Char} :
    Segment text ↔ text ≠ [] ∧ trim text = text ∧ opened text = 0 ∧
      ∀ position < text.length, text[position]? = some ':' → opened (text.take position) ≠ 0 := by
  constructor
  · intro segment
    refine ⟨segment.nonempty, trim_of_trimmed segment.trimmed, segment.closed, fun position bound colon => ?_⟩
    obtain ⟨_, found⟩ := List.getElem?_eq_some_iff.mp colon
    refine segment.inside _ (text.drop (position + 1)) ?_
    rw [← found, List.getElem_cons_drop, List.take_append_drop]
  · rintro ⟨nonempty, trimmed, closed, inside⟩
    refine ⟨nonempty, trimmed ▸ trimmed_trim text, closed, ?_⟩
    rintro front back rfl
    simpa using inside front.length (by simp) (by simp)

instance (text : List Char) : Decidable (Segment text) := decidable_of_iff _ segment_iff.symm

section
variable {depth : Int} {text : List Char}

/-- A colon outside of angle brackets is all that can divide. -/
theorem segmentsFrom_cons {c : Char} (inside : c = ':' → depth ≠ 0) (s : List Char) :
    segmentsFrom depth (c :: s) = segmentsFrom.extend c (segmentsFrom (depth + opened [c]) s) := by
  conv_lhs => unfold segmentsFrom
  split
  next rest =>
    have still : opened [':'] = 0 := rfl
    rw [if_neg (inside rfl), still, Int.add_zero]
  next => rfl
  next => rfl
  next opening closing _ =>
    have still : opened [c] = 0 := by simp [opened, show c ≠ '<' from opening, show c ≠ '>' from closing]
    rw [still, Int.add_zero]

theorem foldr_extend (text first : List Char) (others : List (List Char)) :
    text.foldr segmentsFrom.extend (first :: others) = (text ++ first) :: others := by
  induction text with
  | nil => rfl
  | cons c text ih => rw [List.foldr_cons, ih, segmentsFrom.extend, List.cons_append]

/-- Over a text with all its colons inside of angle brackets the division only goes deeper. -/
theorem segmentsFrom_append (inside : ∀ front back, text = front ++ ':' :: back → depth + opened front ≠ 0)
    (rest : List Char) :
    segmentsFrom depth (text ++ rest) = text.foldr segmentsFrom.extend (segmentsFrom (depth + opened text) rest) := by
  induction text generalizing depth with
  | nil => simp
  | cons c text ih =>
    have here : c = ':' → depth ≠ 0 := by
      rintro rfl
      simpa using inside [] text rfl
    have later : ∀ front back, text = front ++ ':' :: back → depth + opened [c] + opened front ≠ 0 := by
      rintro front back rfl
      rw [Int.add_assoc, ← opened_append]
      exact inside (c :: front) back rfl
    rw [List.cons_append, segmentsFrom_cons here, ih later, List.foldr_cons, Int.add_assoc, ← opened_append,
      List.singleton_append]

theorem Segment.splits (segment : Segment text) : segmentsFrom 0 text = [text] := by
  have inside : ∀ front back, text = front ++ ':' :: back → 0 + opened front ≠ 0 := by
    simpa using segment.inside
  have split := segmentsFrom_append inside []
  rw [List.append_nil, segment.closed, Int.add_zero] at split
  rw [split, segmentsFrom, foldr_extend, List.append_nil]

theorem Segment.splits_before (segment : Segment text) (rest : List Char) :
    segmentsFrom 0 (text ++ ':' :: ':' :: rest) = text :: segmentsFrom 0 rest := by
  have inside : ∀ front back, text = front ++ ':' :: back → 0 + opened front ≠ 0 := by
    simpa using segment.inside
  rw [segmentsFrom_append inside, segment.closed, Int.add_zero, segmentsFrom, if_pos rfl, foldr_extend, List.append_nil]

theorem segmentsFrom_intercalate {texts : List (List Char)} (nonempty : texts ≠ [])
    (segments : ∀ text ∈ texts, Segment text) : segmentsFrom 0 ([':', ':'].intercalate texts) = texts := by
  induction texts with
  | nil => exact absurd rfl nonempty
  | cons text rest ih =>
    obtain ⟨first, later⟩ := List.forall_mem_cons.mp segments
    cases rest with
    | nil => simpa using first.splits
    | cons next rest =>
      have join : [':', ':'].intercalate (text :: next :: rest) =
          text ++ ':' :: ':' :: [':', ':'].intercalate (next :: rest) := by
        rw [List.intercalate_cons_cons, List.append_assoc]
        rfl
      rw [join, first.splits_before, ih (by simp) later]

end

/-- A name that is joined from segments is split into them again. -/
theorem split_join {enclosing : List String} {name : String}
    (segments : ∀ segment ∈ enclosing ++ [name], Segment segment.toList) :
    split (join enclosing name) = (enclosing, name) := by
  have texts : ∀ text ∈ (enclosing ++ [name]).map String.toList, Segment text :=
    List.forall_mem_map.mpr segments
  have divided : segmentsFrom 0 (join enclosing name).toList = (enclosing ++ [name]).map String.toList := by
    rw [join, Text.toList_join]
    exact segmentsFrom_intercalate (by simp) texts
  have trimmed : ((enclosing ++ [name]).map String.toList).map trim = (enclosing ++ [name]).map String.toList := by
    conv_rhs => rw [← List.map_id ((enclosing ++ [name]).map String.toList)]
    exact List.map_congr_left fun text member => trim_of_trimmed (texts text member).trimmed
  have kept : (enclosing.map String.toList).filter (!·.isEmpty) = enclosing.map String.toList := by
    apply List.filter_eq_self.mpr
    intro text member
    simpa using (texts text (by simp [List.mem_map.mp member])).nonempty
  rw [split, splitChars, divided, trimmed]
  simp [kept]

theorem split_join_specialized :
    (∀ segment ∈ ["ns", "Map<a::Key<b::T>, c::V>"] ++ ["Outer<::d::E>"], Segment segment.toList) ∧
      split "ns::Map<a::Key<b::T>, c::V>::Outer<::d::E>" = (["ns", "Map<a::Key<b::T>, c::V>"], "Outer<::d::E>") := by
  have segments : ∀ segment ∈ ["ns", "Map<a::Key<b::T>, c::V>"] ++ ["Outer<::d::E>"], Segment segment.toList := by
    decide +kernel
  have joined : join ["ns", "Map<a::Key<b::T>, c::V>"] "Outer<::d::E>" = "ns::Map<a::Key<b::T>, c::V>::Outer<::d::E>" := by
    decide +kernel
  exact ⟨segments, joined ▸ split_join segments⟩

end MarkerGen.QualifiedName
