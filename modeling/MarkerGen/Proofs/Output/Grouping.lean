import Mathlib.Data.List.Basic
import Mathlib.Data.List.Forall2
import Mathlib.Data.List.Induction
import MarkerGen.Proofs.Output.Stale
import MarkerGen.Output.Layout

/-! How blocks come together in files. A block that asks for its file has it alone; the others share
a file exactly if they have one target. No block is lost, doubled or moved, and files stand in the
order of their first blocks. -/
namespace MarkerGen

theorem Text.join_concat (sep : String) {pieces : List String} (some : pieces ≠ []) (last : String) :
    join sep (pieces ++ [last]) = join sep pieces ++ sep ++ last := by
  induction pieces with
  | nil => exact absurd rfl some
  | cons piece rest ih =>
    cases rest with
    | nil => rfl
    | cons next others =>
      rw [List.cons_append, List.cons_append, join, ← List.cons_append, ih (List.cons_ne_nil _ _), join]
      simp only [String.append_assoc]

namespace Layout

/-- A block with the file that it goes to. -/
abbrev Block := Section × Path

def asks (p : Block) : Bool := p.1.code.fileName.isSome

/-- Whether a block goes to the file of an earlier one. -/
def joins (p earlier : Block) : Bool := !asks p && !asks earlier && earlier.2.same p.2

/-- The blocks that begin a file. -/
def openers (blocks : List Block) : List Block := firstOfEach joins [] blocks

/-- The blocks of the file that a block begins. -/
def fileBlocks (blocks : List Block) (first : Block) : List Block :=
  if asks first then [first] else blocks.filter (joins · first)

def draftOf (blocks : List Block) (first : Block) : Draft where
  output := first.2
  text := Text.join "\n" ((fileBlocks blocks first).map (·.1.render))
  origin := first.1.origin
  explicit := asks first

/-- What one more block does to the files: it begins one, or it goes to the end of one. -/
inductive Filed (blocks : List Block) (p : Block) : Prop
  | opened (list : openers (blocks ++ [p]) = openers blocks ++ [p]) (own : fileBlocks (blocks ++ [p]) p = [p])
      (others : ∀ q ∈ openers blocks, fileBlocks (blocks ++ [p]) q = fileBlocks blocks q)
      (free : ∀ q ∈ openers blocks, joins p q = false)
  | joined {front back : List Block} {first : Block} (plain : asks p = false)
      (list : openers (blocks ++ [p]) = openers blocks) (split : openers blocks = front ++ first :: back)
      (taken : joins p first = true) (more : fileBlocks (blocks ++ [p]) first = fileBlocks blocks first ++ [p])
      (passed : ∀ q ∈ front, joins p q = false)
      (others : ∀ q ∈ front ++ back, fileBlocks (blocks ++ [p]) q = fileBlocks blocks q)

section
variable {blocks : List Block} {p q r : Block}

theorem joins_iff : joins p q = true ↔ asks p = false ∧ asks q = false ∧ q.2.same p.2 = true := by
  simp [joins, and_assoc]

theorem joins_comm (p q : Block) : joins p q = joins q p := by
  rw [joins, joins, Path.same_comm, Bool.and_comm (!asks p)]

theorem joins_trans (first : joins p q = true) (second : joins q r = true) : joins p r = true := by
  obtain ⟨plain, _, one⟩ := joins_iff.mp first
  obtain ⟨_, also, two⟩ := joins_iff.mp second
  exact joins_iff.mpr ⟨plain, also, Path.same_trans two one⟩

theorem joins_self (plain : asks p = false) : joins p p = true :=
  joins_iff.mpr ⟨plain, plain, Path.same_iff.mpr rfl⟩

theorem openers_apart (blocks : List Block) : (openers blocks).Pairwise fun a b => joins a b = false :=
  (firstOfEach_fresh joins [] blocks).2.imp fun {a b} apart => (joins_comm a b).trans apart

theorem openers_concat (blocks : List Block) (p : Block) :
    openers (blocks ++ [p]) = openers blocks ++ if (openers blocks).any (joins p) then [] else [p] := by
  rw [openers, firstOfEach_concat]
  rfl

/-- A block that asks for its file always begins one. -/
theorem filter_asks_openers (blocks : List Block) : (openers blocks).filter asks = blocks.filter asks := by
  induction blocks using List.reverseRecOn with
  | nil => rfl
  | append_singleton blocks p ih =>
    rw [openers_concat, List.filter_append, List.filter_append, ih]
    cases asked : asks p with
    | true =>
      have free : (openers blocks).any (joins p) = false := by simp [joins, asked]
      rw [free, if_neg Bool.false_ne_true]
    | false => split <;> simp [asked]

theorem fileBlocks_concat (blocks : List Block) (p q : Block) :
    fileBlocks (blocks ++ [p]) q = fileBlocks blocks q ++ if joins p q then [p] else [] := by
  unfold fileBlocks
  cases asked : asks q with
  | true =>
    have apart : joins p q = false := by simp [joins, asked]
    simp [apart]
  | false =>
    rw [if_neg Bool.false_ne_true, if_neg Bool.false_ne_true, List.filter_append, List.filter_cons, List.filter_nil]

theorem fileBlocks_kept (apart : joins p q = false) : fileBlocks (blocks ++ [p]) q = fileBlocks blocks q := by
  rw [fileBlocks_concat, apart]
  simp

/-- A block that joins no file has no block of its file in front of it. -/
theorem fileBlocks_opened (free : ∀ q ∈ openers blocks, joins p q = false) : fileBlocks (blocks ++ [p]) p = [p] := by
  cases asked : asks p with
  | true => rw [fileBlocks, if_pos asked]
  | false =>
    have none : blocks.filter (joins · p) = [] := by
      refine List.filter_eq_nil_iff.mpr fun b member joined => ?_
      have reflexive : joins b b = true := joins_self (joins_iff.mp joined).1
      rcases firstOfEach_covers reflexive [] member with before | ⟨opener, opens, one⟩
      · cases before
      · have shared := joins_trans ((joins_comm p b).trans joined) one
        rw [free opener opens] at shared
        cases shared
    rw [fileBlocks_concat, fileBlocks, asked, if_neg Bool.false_ne_true, none, joins_self asked]
    rfl

theorem filed (blocks : List Block) (p : Block) : Filed blocks p := by
  have list := openers_concat blocks p
  cases known : (openers blocks).any (joins p) with
  | false =>
    rw [known] at list
    have free : ∀ q ∈ openers blocks, joins p q = false := by simpa using known
    exact .opened list (fileBlocks_opened free) (fun q opens => fileBlocks_kept (free q opens)) free
  | true =>
    rw [known, if_pos rfl, List.append_nil] at list
    obtain ⟨first, opens, taken⟩ := List.any_eq_true.mp known
    obtain ⟨front, back, split⟩ := List.append_of_mem opens
    -- A block that joined another file as well would make these two one.
    have apart : ∀ q ∈ front ++ back, joins p q = false := by
      intro q member
      by_contra both
      have one := joins_trans ((joins_comm first p).trans taken) (Bool.not_eq_false _ ▸ both)
      have distinct := split ▸ openers_apart blocks
      obtain ⟨_, later, earlier⟩ := List.pairwise_append.mp distinct
      rcases List.mem_append.mp member with before | after
      · have other := earlier q before first List.mem_cons_self
        rw [joins_comm, one] at other
        cases other
      · have other := List.rel_of_pairwise_cons later after
        rw [one] at other
        cases other
    refine .joined (joins_iff.mp taken).1 list split taken ?_ (fun q before => apart q (List.mem_append_left _ before))
      fun q member => fileBlocks_kept (apart q member)
    rw [fileBlocks_concat, taken, if_pos rfl]

/-- A block that begins a file is the first one of it. -/
theorem head?_fileBlocks (opens : q ∈ openers blocks) : (fileBlocks blocks q).head? = some q := by
  induction blocks using List.reverseRecOn with
  | nil => cases opens
  | append_singleton blocks p ih =>
    cases filed blocks p with
    | opened list own others free =>
      rw [list] at opens
      rcases List.mem_append.mp opens with earlier | new
      · rw [others q earlier, ih earlier]
      · rw [List.mem_singleton.mp new, own]
        rfl
    | joined plain list =>
      rw [list] at opens
      rw [fileBlocks_concat, List.head?_append, ih opens]
      rfl

/-- Every block is in one file, and once. -/
theorem flatMap_fileBlocks_perm (blocks : List Block) : ((openers blocks).flatMap (fileBlocks blocks)).Perm blocks := by
  induction blocks using List.reverseRecOn with
  | nil => exact .refl _
  | append_singleton blocks p ih =>
    refine .trans ?_ (ih.append_right [p])
    cases filed blocks p with
    | opened list own others free =>
      rw [list, List.flatMap_append, List.flatMap_congr others, List.flatMap_singleton, own]
    | @joined front back first plain list split taken more passed others =>
      have before : front.flatMap (fileBlocks (blocks ++ [p])) = front.flatMap (fileBlocks blocks) :=
        List.flatMap_congr fun q member => others q (List.mem_append_left _ member)
      have after : back.flatMap (fileBlocks (blocks ++ [p])) = back.flatMap (fileBlocks blocks) :=
        List.flatMap_congr fun q member => others q (List.mem_append_right _ member)
      rw [list, split, List.flatMap_append, List.flatMap_cons, List.flatMap_append, List.flatMap_cons, before, after,
        more]
      simp only [List.append_assoc]
      exact (List.perm_append_comm.append_left _).append_left _

/-! ### The files in the making -/

theorem extend?_none {output : Path} {drafts : List Draft} (block : String)
    (passed : ∀ d ∈ drafts, (!d.explicit && d.output.same output) = false) : extend? output block drafts = none := by
  induction drafts with
  | nil => rfl
  | cons d rest ih =>
    obtain ⟨first, others⟩ := List.forall_mem_cons.mp passed
    rw [extend?, first, ih others]
    rfl

theorem extend?_first {output : Path} {front back : List Draft} {draft : Draft} (block : String)
    (passed : ∀ d ∈ front, (!d.explicit && d.output.same output) = false)
    (taken : (!draft.explicit && draft.output.same output) = true) :
    extend? output block (front ++ draft :: back) =
      some (front ++ { draft with text := draft.text ++ "\n" ++ block } :: back) := by
  induction front with
  | nil => rw [List.nil_append, extend?, if_pos taken]; rfl
  | cons d rest ih =>
    obtain ⟨first, others⟩ := List.forall_mem_cons.mp passed
    rw [List.cons_append, extend?, first, ih others]
    rfl

theorem takes_draftOf (plain : asks p = false) (blocks : List Block) (q : Block) :
    (!(draftOf blocks q).explicit && (draftOf blocks q).output.same p.2) = joins p q := by
  rw [joins, plain]
  rfl

theorem draftOf_eq {more : List Block} (same : fileBlocks more q = fileBlocks blocks q) :
    draftOf more q = draftOf blocks q := by
  rw [draftOf, same, draftOf]

theorem draftOf_opened (own : fileBlocks blocks p = [p]) :
    draftOf blocks p = ⟨p.2, p.1.render, p.1.origin, asks p⟩ := by
  rw [draftOf, own]
  rfl

theorem draftOf_joined {more : List Block} (opens : q ∈ openers blocks)
    (longer : fileBlocks more q = fileBlocks blocks q ++ [p]) :
    draftOf more q = { draftOf blocks q with text := (draftOf blocks q).text ++ "\n" ++ p.1.render } := by
  have some : (fileBlocks blocks q).map (·.1.render) ≠ [] := by
    intro none
    have first := head?_fileBlocks opens
    rw [List.map_eq_nil_iff.mp none] at first
    cases first
  rw [draftOf, longer, List.map_append, List.map_singleton, Text.join_concat "\n" some, draftOf]

theorem addSection_eq (drafts : List Draft) (p : Block) : addSection drafts p =
    let draft : Draft := ⟨p.2, p.1.render, p.1.origin, asks p⟩
    if asks p then drafts ++ [draft] else (extend? p.2 p.1.render drafts).getD (drafts ++ [draft]) := rfl

/-- The files in the making after some blocks are those that these blocks begin. -/
theorem foldl_addSection (blocks : List Block) :
    blocks.foldl addSection [] = (openers blocks).map (draftOf blocks) := by
  induction blocks using List.reverseRecOn with
  | nil => rfl
  | append_singleton blocks p ih =>
    rw [List.foldl_append, List.foldl_cons, List.foldl_nil, ih, addSection_eq]
    cases filed blocks p with
    | opened list own others free =>
      have kept : (openers blocks).map (draftOf (blocks ++ [p])) = (openers blocks).map (draftOf blocks) :=
        List.map_congr_left fun q opens => draftOf_eq (others q opens)
      rw [list, List.map_append, List.map_singleton, kept, draftOf_opened own]
      cases asked : asks p with
      | true => rfl
      | false =>
        have passed : ∀ d ∈ (openers blocks).map (draftOf blocks), (!d.explicit && d.output.same p.2) = false := by
          intro d member
          obtain ⟨q, opens, rfl⟩ := List.mem_map.mp member
          rw [takes_draftOf asked, free q opens]
        rw [if_neg Bool.false_ne_true, extend?_none _ passed]
        rfl
    | @joined front back first plain list split taken more passed others =>
      have opens : first ∈ openers blocks := by simp [split]
      have before : front.map (draftOf (blocks ++ [p])) = front.map (draftOf blocks) :=
        List.map_congr_left fun q member => draftOf_eq (others q (List.mem_append_left _ member))
      have after : back.map (draftOf (blocks ++ [p])) = back.map (draftOf blocks) :=
        List.map_congr_left fun q member => draftOf_eq (others q (List.mem_append_right _ member))
      have unmatched : ∀ d ∈ front.map (draftOf blocks), (!d.explicit && d.output.same p.2) = false := by
        intro d member
        obtain ⟨q, inside, rfl⟩ := List.mem_map.mp member
        rw [takes_draftOf plain, passed q inside]
      have matched := (takes_draftOf plain blocks first).trans taken
      rw [list, split, List.map_append, List.map_cons, List.map_append, List.map_cons, before, after,
        draftOf_joined opens more, plain, if_neg Bool.false_ne_true, extend?_first _ unmatched matched]
      rfl

end

/-- The fragment of the file that a block begins. -/
def fragmentOf (input : Path) (blocks : List Block) (first : Block) : Fragment :=
  .ofText input first.2 (Text.join "\n" ((fileBlocks blocks first).map (·.1.render))) first.1.origin

/-- A block that may go where it wants to, with its file. -/
inductive Placed (l : Layout) (input : Path) : Section → Block → Prop
  | intro {s : Section} {output : Path} (target : l.target input s = .ok output) : Placed l input s (s, output)

/-- The error for a block whose target is rejected. -/
inductive Rejected (l : Layout) (input : Path) : Section → RunError → Prop
  | intro {s : Section} {fault : TargetFault} (refused : l.target input s = .error fault) :
      Rejected l input s (.generation s.attempt fault.message)

variable (l : Layout) (input : Path) (sections : List Section)

theorem placed_placed :
    List.Forall₂ (Placed l input) (sections.filter fun s => (l.target input s).isOk) (l.placed input sections) := by
  induction sections with
  | nil => exact .nil
  | cons s rest ih =>
    rw [placed, List.filterMap_cons, List.filter_cons]
    cases target : l.target input s with
    | ok output => exact .cons (.intro target) ih
    | error fault => exact ih

theorem misplaced_rejected :
    List.Forall₂ (Rejected l input) (sections.filter fun s => !(l.target input s).isOk)
      (l.misplaced input sections) := by
  induction sections with
  | nil => exact .nil
  | cons s rest ih =>
    rw [misplaced, List.filterMap_cons, List.filter_cons]
    cases refused : l.target input s with
    | ok output => exact ih
    | error fault => exact .cons (.intro refused) ih

theorem placed_unique {a b : List Block} (first : List.Forall₂ (Placed l input) sections a)
    (second : List.Forall₂ (Placed l input) sections b) : a = b := by
  refine List.right_unique_forall₂' ?_ first second
  rintro s _ _ ⟨target⟩ ⟨other⟩
  rw [target] at other
  cases other
  rfl

/-- How blocks are filed: every one that has a target is in one file, alone if it asks for the file and
else together with all blocks of the same target; every other one costs an error. -/
structure Filing (blocks : List Block) (fragments : List Fragment) (errors : List RunError) : Prop where
  placed : List.Forall₂ (Placed l input) (sections.filter fun s => (l.target input s).isOk) blocks
  rejected : List.Forall₂ (Rejected l input) (sections.filter fun s => !(l.target input s).isOk) errors
  files : fragments = (openers blocks).map (fragmentOf input blocks)
  inOrder : (openers blocks).Sublist blocks
  alone : (openers blocks).filter asks = blocks.filter asks
  complete : ((openers blocks).flatMap (fileBlocks blocks)).Perm blocks
  first : ∀ opener ∈ openers blocks, (fileBlocks blocks opener).head? = some opener
  apart : ((openers blocks).filter fun opener => !asks opener).Pairwise fun a b => a.2.same b.2 = false

theorem filing_assemble :
    Filing l input sections (l.placed input sections) (l.assemble input sections).1 (l.assemble input sections).2 where
  placed := placed_placed l input sections
  rejected := misplaced_rejected l input sections
  files := by
    rw [assemble, foldl_addSection, List.map_map]
    rfl
  inOrder := firstOfEach_sublist joins [] _
  alone := filter_asks_openers _
  complete := flatMap_fileBlocks_perm _
  first := fun _ => head?_fileBlocks
  apart := by
    refine List.pairwise_filter.mpr ((openers_apart _).imp fun {a b} apart plainA plainB => ?_)
    rw [joins, plainA, plainB, Bool.true_and, Bool.true_and, Path.same_comm] at apart
    exact apart

/-- Assembling loses, doubles and moves nothing. Its blocks are those of the sections that have a
target, and all else is told of these. -/
theorem assemble_groups : ∃ blocks : List Block,
    Filing l input sections blocks (l.assemble input sections).1 (l.assemble input sections).2 :=
  ⟨l.placed input sections, filing_assemble l input sections⟩

def mixedSections : List Section :=
  [code "A" "a" none, code "B" "b" (some "x"), code "C" "c" (some "../y"), code "D" "d" none, code "E" "e" (some "x")]
where
  code (declaration contents : String) (fileName : Option String) : Section :=
    ⟨"p", "1", ⟨"t"⟩, declaration, ⟨⟨"s"⟩, 1, 1⟩, ⟨contents, fileName, none⟩⟩

theorem assemble_groups_mixed :
    let assembled := (Layout.mk .perFile none "h").assemble ⟨"s"⟩ mixedSections
    ∃ blocks, Filing ⟨.perFile, none, "h"⟩ ⟨"s"⟩ mixedSections blocks assembled.1 assembled.2 ∧
      blocks.map (fun b => (b.1.declaration, b.2)) = [("A", ⟨"s.t.h"⟩), ("B", ⟨"x"⟩), ("D", ⟨"s.t.h"⟩), ("E", ⟨"x"⟩)] ∧
      (openers blocks).map (fun b => (fileBlocks blocks b).map (·.1.declaration)) = [["A", "D"], ["B"], ["E"]] ∧
      assembled.1.length = 3 ∧ assembled.2.length = 1 := by
  obtain ⟨blocks, filing⟩ := assemble_groups ⟨.perFile, none, "h"⟩ ⟨"s"⟩ mixedSections
  have known : blocks = Layout.placed ⟨.perFile, none, "h"⟩ ⟨"s"⟩ mixedSections :=
    placed_unique _ _ _ filing.placed (placed_placed _ _ _)
  have files := congrArg List.length filing.files
  rw [List.length_map, known] at files
  refine ⟨blocks, filing, ?_, ?_, files.trans (by decide +kernel), filing.rejected.length_eq.symm.trans (by decide +kernel)⟩
  · rw [known]
    decide +kernel
  · rw [known]
    decide +kernel

end Layout

end MarkerGen
