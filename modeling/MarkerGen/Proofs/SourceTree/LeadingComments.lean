import Mathlib.Data.List.TakeWhile
import MarkerGen.Proofs.Chars.Ends
import MarkerGen.Proofs.Chars.Split
import MarkerGen.Proofs.SourceTree.Slices

/-! Comments directly above a node. Where a comment stands is told from the text; which comments give
their tokens is told from the rows of the nodes, and the two differ after a node that takes in the
line break at its end. -/
namespace MarkerGen.Reading

open Chars

/-- Text between siblings: blanks, and backslashes that join a line to the next. -/
def Filler (s : List Char) : Prop :=
  ∀ front c back, s = front ++ c :: back → isBlank c = true ∨ c = '\\' ∧ '\n' ∈ back

def opensLine (r : Reading) (n : Node) : Bool :=
  ((r.slice 0 n.start).toList.reverse.takeWhile (· != '\n')).all isBlank

/-- Whether some whole line between two nodes is blank; a backslash that joins lines is no text. -/
def blankLineBetween (r : Reading) (above below : Node) : Bool :=
  (splitAt (· == '\n') (r.slice above.stop below.start).toList).tail.dropLast.any
    (·.all fun c => isBlank c || c == '\\')

/-- The comments directly above a node, upwards, as they stand in the text. -/
def attached (r : Reading) (below : Node) : List Node → List Place
  | [] => []
  | above :: before =>
    if above.kind = "comment" ∧ r.opensLine above = true ∧ r.blankLineBetween above below = false then
      ⟨above, before⟩ :: attached r above before
    else []

/-- Whether the sibling in front of a node ends before the line break in front of it. -/
def apart (r : Reading) (p : Place) : Bool :=
  p.before.head?.all fun other => (r.slice other.stop p.node.start).toList.contains '\n'

def tokens (r : Reading) (comments : List Place) : List String :=
  comments.reverse.filterMap fun c => AnnotationTokens.commentToken? (r.textOf c.node)

structure Spans (r : Reading) (n : Node) : Prop where
  start : r.Bounds n.start
  stop : r.Bounds n.stop
  order : n.start ≤ n.stop

/-- A node and the siblings in front of it, nearest first, stand in the text one after the other. A
comment without a sibling in front of it is at the start of the file. -/
inductive LaidOut (r : Reading) : Node → List Node → Prop
  | first {n : Node} (spans : r.Spans n) (leads : n.kind = "comment" → Filler (r.slice 0 n.start).toList) :
      LaidOut r n []
  | next {n other : Node} {before : List Node} (spans : r.Spans n) (order : other.stop ≤ n.start)
      (gap : Filler (r.slice other.stop n.start).toList) (earlier : LaidOut r other before) :
      LaidOut r n (other :: before)

variable {r : Reading} {n other : Node} {before : List Node} {s : List Char}

theorem Filler.mem (filler : Filler s) {c : Char} (member : c ∈ s) : isBlank c = true ∨ c = '\\' := by
  obtain ⟨front, back, split⟩ := List.append_of_mem member
  exact (filler front c back split).imp_right And.left

theorem Filler.last_line (filler : Filler s) : (s.reverse.takeWhile (· != '\n')).all isBlank = true := by
  apply List.all_eq_true.mpr
  intro c member
  obtain ⟨after, rest, split⟩ := List.append_of_mem member
  have whole : s = (s.reverse.dropWhile (· != '\n')).reverse ++ rest.reverse ++ c :: after.reverse := by
    have parts := congrArg List.reverse (List.takeWhile_append_dropWhile (p := (· != '\n')) (l := s.reverse))
    rw [split] at parts
    simpa using parts.symm
  rcases filler _ c _ whole with blank | ⟨_, joined⟩
  · exact blank
  · have free := List.mem_takeWhile_imp (split ▸ List.mem_append_left _ (List.mem_reverse.mp joined))
    simp at free

theorem filler_of_blank (blank : Blank s) : Filler s := by
  rintro front c back rfl
  exact .inl (blank c (by simp))

theorem apart_cons : r.apart ⟨n, other :: before⟩ = true ↔ '\n' ∈ (r.slice other.stop n.start).toList := by
  simp [apart]

theorem tokens_cons (above : Place) (comments : List Place) :
    r.tokens (above :: comments) =
      r.tokens comments ++ (AnnotationTokens.commentToken? (r.textOf above.node)).toList := by
  cases token : AnnotationTokens.commentToken? (r.textOf above.node) <;> simp [tokens, token]

theorem tokens_append (near far : List Place) : r.tokens (near ++ far) = r.tokens far ++ r.tokens near := by
  simp [tokens]

theorem LaidOut.spans (laid : LaidOut r n before) : r.Spans n := by
  cases laid <;> assumption

theorem opensLine_of_break (last : r.Bounds other.stop) (first : r.Bounds n.start) (order : other.stop ≤ n.start)
    (filler : Filler (r.slice other.stop n.start).toList) (broken : '\n' ∈ (r.slice other.stop n.start).toList) :
    r.opensLine n = true := by
  have stops : ((r.slice other.stop n.start).toList.reverse.takeWhile (· != '\n')).length ≠
      (r.slice other.stop n.start).toList.reverse.length := by
    intro whole
    have free := List.takeWhile_eq_self_iff.mp ((List.takeWhile_prefix _).eq_of_length whole) '\n'
      (List.mem_reverse.mpr broken)
    simp at free
  rw [opensLine, ← slice_append_slice bounds_zero last first (Nat.zero_le _) order, String.toList_append,
    List.reverse_append, List.takeWhile_append, if_neg stops]
  exact filler.last_line

theorem blankLineBetween_iff (filler : Filler (r.slice other.stop n.start).toList) :
    r.blankLineBetween other n = true ↔ 1 < (r.slice other.stop n.start).toList.count '\n' := by
  have lines : (splitAt (· == '\n') (r.slice other.stop n.start).toList).length = _ := length_splitAt _
  rw [blankLineBetween, List.any_eq_true]
  constructor
  · rintro ⟨line, member, _⟩
    have inner := List.length_pos_of_mem member
    rw [List.length_dropLast, List.length_tail, lines] at inner
    rw [List.count]
    omega
  · intro several
    rw [List.count] at several
    obtain ⟨line, member⟩ := List.exists_mem_of_length_pos
      (l := (splitAt (· == '\n') (r.slice other.stop n.start).toList).tail.dropLast)
      (by rw [List.length_dropLast, List.length_tail, lines]; omega)
    refine ⟨line, member, List.all_eq_true.mpr fun c inside => ?_⟩
    have piece := infix_of_mem_splitAt (List.mem_of_mem_tail (List.dropLast_subset _ member))
    rcases filler.mem (piece.subset inside) with blank | rfl
    · simp [blank]
    · simp

/-- A comment that stands apart from the sibling in front of it is the first text on its line. -/
theorem LaidOut.opensLine (laid : LaidOut r n before) (comment : n.kind = "comment")
    (free : r.apart ⟨n, before⟩ = true) : r.opensLine n = true := by
  cases laid with
  | first _ leads => exact (leads comment).last_line
  | next spans order gap earlier =>
    exact opensLine_of_break earlier.spans.stop spans.start order gap (apart_cons.mp free)

/-- The rows of a node and of the sibling in front of it are equal if it does not stand apart. -/
theorem LaidOut.trailing_eq (laid : LaidOut r n before) :
    (before.head?.any fun other => r.row other.stop == r.row n.start) = !r.apart ⟨n, before⟩ := by
  cases laid with
  | first => rfl
  | next spans order gap earlier =>
    rw [Bool.eq_iff_iff, Bool.not_eq_true', ← Bool.not_eq_true, apart_cons]
    simp [row_eq_row_add earlier.spans.stop spans.start order, List.count_eq_zero]

theorem LaidOut.far_iff (laid : LaidOut r n (other :: before)) :
    r.row n.start - r.row other.stop > 1 ↔ r.blankLineBetween other n = true := by
  cases laid with
  | next spans order gap earlier =>
    rw [blankLineBetween_iff gap, row_eq_row_add earlier.spans.stop spans.start order]
    omega

theorem commentsAbove_cons (boundary : Nat) : r.commentsAbove boundary (other :: before) =
    if other.kind != "comment" || boundary - r.row other.stop > 1 ||
        before.head?.any fun sibling => r.row sibling.stop == r.row other.start then []
    else r.commentsAbove (r.row other.start) before ++ (AnnotationTokens.commentToken? (r.textOf other)).toList := by
  cases before <;> rfl

/-- The walk upwards stops at the first attached comment that does not stand apart. -/
theorem commentsAbove_eq (laid : LaidOut r n before) :
    r.commentsAbove (r.row n.start) before = r.tokens ((r.attached n before).takeWhile r.apart) := by
  induction laid with
  | first => rfl
  | @next n other before spans order gap earlier ih =>
    have far := (LaidOut.next spans order gap earlier).far_iff
    rw [commentsAbove_cons, earlier.trailing_eq, attached]
    by_cases comment : other.kind = "comment"
    · cases blank : r.blankLineBetween other n with
      | true => simp [far.mpr blank, tokens]
      | false =>
        have near : ¬ r.row n.start - r.row other.stop > 1 := by simp [far, blank]
        cases free : r.apart ⟨other, before⟩ with
        | false =>
          rw [if_pos (by simp)]
          split <;> simp [free, tokens]
        | true =>
          have opens := earlier.opensLine comment free
          simp [near, comment, opens, free, ih, tokens_cons]
    · simp [comment, tokens]

/-- The leading comments of a node are those attached to it up to the first one that follows a node which
takes in the line break; so all attached tokens are found iff there are none from that comment on. -/
theorem leadingComments_attached_iff {p : Place} (laid : r.LaidOut p.node p.before) :
    r.leadingComments p = r.tokens ((r.attached p.node p.before).takeWhile r.apart) ∧
      (r.leadingComments p = r.tokens (r.attached p.node p.before) ↔
        r.tokens ((r.attached p.node p.before).dropWhile r.apart) = []) := by
  have reached : r.leadingComments p = r.tokens ((r.attached p.node p.before).takeWhile r.apart) :=
    commentsAbove_eq laid
  have whole : r.tokens (r.attached p.node p.before) =
      r.tokens ((r.attached p.node p.before).dropWhile r.apart) ++
        r.tokens ((r.attached p.node p.before).takeWhile r.apart) := by
    rw [← tokens_append, List.takeWhile_append_dropWhile]
  refine ⟨reached, ?_⟩
  rw [reached, whole, List.self_eq_append_left]

instance (r : Reading) (offset : Nat) : Decidable (r.Bounds offset) :=
  inferInstanceAs (Decidable (String.Pos.Raw.IsValid r.text ⟨offset⟩))

theorem LaidOut.under (laid : LaidOut r other before)
    (place : r.Bounds n.start ∧ r.Bounds n.stop ∧ n.start ≤ n.stop ∧ other.stop ≤ n.start ∧
      (r.slice other.stop n.start).toList.all isBlank = true) : LaidOut r n (other :: before) := by
  obtain ⟨start, stop, order, after, blank⟩ := place
  exact .next ⟨start, stop, order⟩ after (filler_of_blank (all_isBlank_iff.mp blank)) laid

def leaf (id : Nat) (kind : String) (start stop : Nat) : Node :=
  .mk ⟨id, kind, "", start, stop, true, false, false, false⟩ []

def annotated : Reading := ⟨"int a; // x\n/* y */\n// z\nenum B {};", ⟨"t.hpp"⟩, [], true⟩

def annotatedEnum : Place where
  node := leaf 5 "enum_specifier" 25 34
  before := [leaf 4 "comment" 20 24, leaf 3 "comment" 12 19, leaf 2 "comment" 7 11, leaf 1 "declaration" 0 6]

theorem leadingComments_annotated :
    annotated.LaidOut annotatedEnum.node annotatedEnum.before ∧
      annotated.leadingComments annotatedEnum = ["y", "z"] := by
  have declaration : annotated.LaidOut (leaf 1 "declaration" 0 6) [] :=
    .first ⟨by decide +kernel, by decide +kernel, by decide⟩ (by simp [leaf, Node.kind, Node.info])
  have laid : annotated.LaidOut annotatedEnum.node annotatedEnum.before :=
    (((declaration.under (by decide +kernel)).under (by decide +kernel)).under (by decide +kernel)).under
      (by decide +kernel)
  refine ⟨laid, ?_⟩
  rw [(leadingComments_attached_iff laid).2.mpr (by decide +kernel)]
  decide +kernel

/-- A text with a comment between an include, which takes in the line break at its end, and an enum. -/
def belowInclude : Reading := ⟨"#include <a>\n// x\nenum B {};", ⟨"t.hpp"⟩, [], true⟩

def enumBelowInclude : Place where
  node := leaf 3 "enum_specifier" 18 27
  before := [leaf 2 "comment" 13 17, leaf 1 "preproc_include" 0 13]

theorem comment_missed_below_include :
    belowInclude.LaidOut enumBelowInclude.node enumBelowInclude.before ∧
      belowInclude.tokens (belowInclude.attached enumBelowInclude.node enumBelowInclude.before) = ["x"] ∧
      belowInclude.leadingComments enumBelowInclude = [] := by
  have directive : belowInclude.LaidOut (leaf 1 "preproc_include" 0 13) [] :=
    .first ⟨by decide +kernel, by decide +kernel, by decide⟩ (by simp [leaf, Node.kind, Node.info])
  refine ⟨(directive.under (by decide +kernel)).under (by decide +kernel), ?_, ?_⟩ <;> decide +kernel

end MarkerGen.Reading
