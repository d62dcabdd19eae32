import Mathlib.Data.List.Forall2
import MarkerGen.Proofs.Chars.Ends
import MarkerGen.Proofs.Chars.Split
import MarkerGen.Proofs.SourceTree.MemberAccess

/-! The namespaces of declarations. A declaration has the segments of all namespace blocks around it, the
outermost block first. A segment that is written with `inline` in front of its identifier is recorded with
the keyword and is then no identifier. -/
namespace MarkerGen

/-- A segment of the name of a namespace block. In front of its identifier the keyword `inline` may be
written, with blanks between the two. -/
structure NamespaceSegment where
  before : List Char
  inlined : Option (List Char)
  name : List Char
  after : List Char

namespace NamespaceSegment

def keyword : List Char := ['i', 'n', 'l', 'i', 'n', 'e']

def lead (s : NamespaceSegment) : List Char :=
  match s.inlined with
  | none => []
  | some gap => keyword ++ gap

def written (s : NamespaceSegment) : List Char := s.before ++ (s.lead ++ s.name ++ s.after)

def identifier (s : NamespaceSegment) : String := String.ofList s.name

def recorded (s : NamespaceSegment) : String := String.ofList (s.lead ++ s.name)

structure Valid (s : NamespaceSegment) : Prop where
  before : Chars.Blank s.before
  gap : ∀ gap ∈ s.inlined, Chars.Blank gap ∧ gap ≠ []
  nonempty : s.name ≠ []
  word : s.name ≠ keyword
  solid : ∀ c ∈ s.name, Chars.isBlank c = false ∧ c ≠ ':'
  after : Chars.Blank s.after

section
variable {s : NamespaceSegment}

theorem recorded_eq_identifier_iff : s.recorded = s.identifier ↔ s.inlined = none := by
  rw [recorded, identifier, String.ofList_inj, List.append_left_eq_self]
  unfold lead
  cases s.inlined <;> simp [keyword]

theorem Valid.colon_not_mem (valid : s.Valid) : ':' ∉ s.written := by
  have blank {gap : List Char} (blank : Chars.Blank gap) : ':' ∉ gap := fun inside => by
    have := blank _ inside
    revert this
    decide
  have lead : ':' ∉ s.lead := by
    unfold NamespaceSegment.lead
    cases inlined : s.inlined with
    | none => simp
    | some gap => simp [keyword, blank (valid.gap gap inlined).1]
  have name : ':' ∉ s.name := fun inside => (valid.solid _ inside).2 rfl
  simp [written, lead, name, blank valid.before, blank valid.after]

theorem Valid.trim_written (valid : s.Valid) : Chars.trim s.written = s.lead ++ s.name := by
  have name : Chars.Trimmed s.name := Chars.trimmed_of_solid fun c inside => (valid.solid c inside).1
  have first : ∀ c ∈ s.lead.head?, Chars.isBlank c = false := by
    unfold lead
    cases s.inlined with
    | none => simp
    | some gap => simp [keyword]; decide
  exact Chars.trim_of_blank valid.before (name.append valid.nonempty first) valid.after

theorem Valid.recorded_ne (valid : s.Valid) : s.recorded ≠ "" ∧ s.recorded ≠ String.ofList keyword := by
  have longer : keyword.length < (keyword ++ s.name).length := by
    have := List.length_pos_iff.mpr valid.nonempty
    rw [List.length_append]
    omega
  rw [recorded, ← String.ofList_nil, ne_eq, ne_eq, String.ofList_inj, String.ofList_inj]
  refine ⟨by simp [valid.nonempty], ?_⟩
  unfold lead
  cases s.inlined with
  | none => exact valid.word
  | some gap =>
    intro same
    have equal := congrArg List.length same
    simp only [List.length_append] at equal longer
    omega

end

end NamespaceSegment

theorem QualifiedName.namespaceSegments_eq {text : String} {segments : List NamespaceSegment}
    (nonempty : segments ≠ []) (valid : ∀ s ∈ segments, s.Valid)
    (written : text.toList = [':', ':'].intercalate (segments.map NamespaceSegment.written)) :
    namespaceSegments text = segments.map NamespaceSegment.recorded := by
  have unpaired : ∀ piece ∈ segments.map NamespaceSegment.written, Chars.Unpaired ':' ':' piece := by
    intro piece listed
    obtain ⟨s, member, rfl⟩ := List.mem_map.mp listed
    exact Chars.unpaired_of_free (valid s member).colon_not_mem
  have trimmed : ((segments.map NamespaceSegment.written).map Chars.trim).map String.ofList =
      segments.map NamespaceSegment.recorded := by
    rw [List.map_map, List.map_map]
    refine List.map_congr_left fun s member => ?_
    simp [(valid s member).trim_written, NamespaceSegment.recorded]
  rw [namespaceSegments, written, Chars.splitPair_intercalate (by simpa using nonempty) unpaired, trimmed,
    List.filter_eq_self]
  intro segment listed
  obtain ⟨s, member, rfl⟩ := List.mem_map.mp listed
  obtain ⟨some, word⟩ := (valid s member).recorded_ne
  have word : s.recorded ≠ "inline" := word
  simp [some, word]

/-- The segments of the name that a namespace block is written with; an unnamed block has none. -/
inductive Headed (r : Reading) (n : Node) : List NamespaceSegment → Prop
  | unnamed (missing : n.child? "name" = none) : Headed r n []
  | named {name : Node} {segments : List NamespaceSegment} (found : n.child? "name" = some name)
      (nonempty : segments ≠ []) (valid : ∀ s ∈ segments, s.Valid)
      (written : (r.textOf name).toList = [':', ':'].intercalate (segments.map NamespaceSegment.written)) :
      Headed r n segments

/-- A node with the namespace blocks around it, outermost first. -/
inductive InBlocks (root : Node) : List Node → Node → Prop
  | top {n : Node} (inside : n ∈ root.children) : InBlocks root [] n
  | part {blocks : List Node} {n c : Node} (above : InBlocks root blocks n) (plain : n.construct ≠ .namespaceBlock)
      (inside : c ∈ n.children) : InBlocks root blocks c
  | body {blocks : List Node} {n body c : Node} (above : InBlocks root blocks n)
      (plain : n.construct ≠ .namespaceBlock) (found : n.child? "body" = some body) (inside : c ∈ body.children) :
      InBlocks root blocks c
  | block {blocks : List Node} {n body c : Node} (above : InBlocks root blocks n)
      (construct : n.construct = .namespaceBlock) (found : n.child? "body" = some body)
      (inside : c ∈ body.children) : InBlocks root (blocks ++ [n]) c

namespace Outline

/-- The namespaces that a block adds to those around it. -/
def spaces (r : Reading) (n : Node) : List String :=
  match n.child? "name" with
  | none => []
  | some name => QualifiedName.namespaceSegments (r.textOf name)

/-- A declaration with the namespaces of the blocks around its node, which come first in its qualified name. -/
def Housed (r : Reading) (root : Node) (d : Declaration) : Prop :=
  ∃ blocks n own, InBlocks root blocks n ∧ Declares r n d ∧ d.namespaces = blocks.flatMap (spaces r) ∧ own ≠ [] ∧
    d.qualifiedName = Text.join "::" (d.namespaces ++ own)

section
variable {r : Reading} {root n : Node} {s : Surroundings} {blocks : List Node}

theorem spaces_of_headed {segments : List NamespaceSegment} (headed : Headed r n segments) :
    spaces r n = segments.map NamespaceSegment.recorded := by
  unfold spaces
  cases headed with
  | unnamed missing => rw [missing, List.map_nil]
  | named found nonempty valid written =>
    rw [found]
    exact QualifiedName.namespaceSegments_eq nonempty valid written

theorem spaces_of_forall_headed {headings : List (List NamespaceSegment)}
    (headed : List.Forall₂ (Headed r) blocks headings) :
    blocks.flatMap (spaces r) = headings.flatten.map NamespaceSegment.recorded := by
  induction headed with
  | nil => rfl
  | cons first _ ih =>
    rw [List.flatMap_cons, List.flatten_cons, List.map_append, ih, spaces_of_headed first]

theorem namespaces_inNamespace (r : Reading) (s : Surroundings) (n : Node) :
    (inNamespace r s n).namespaces = s.namespaces ++ spaces r n := by
  unfold inNamespace spaces
  cases n.child? "name" <;> simp

theorem housed_declare (there : InBlocks root blocks n) (around : s.namespaces = blocks.flatMap (spaces r))
    {kind : Kind} {name : String} {enclosing : List String} {location : Location} {annotations : List String}
    {templateParams : List TemplateParam} {detail : Detail}
    (declares : Declares r n (s.declare kind name enclosing location annotations templateParams detail)) :
    Housed r root (s.declare kind name enclosing location annotations templateParams detail).bare := by
  refine ⟨blocks, n, s.records ++ [QualifiedName.join enclosing name], there, declares.alike rfl rfl rfl, around,
    by simp, ?_⟩
  exact congrArg (Text.join "::") (List.append_assoc _ _ _)

theorem SpecifiedBy.specifies {p core : Place} (here : SpecifiedBy p core) : Specifies p.node core.node := by
  rcases here with rfl | ⟨declaration, found⟩
  · exact .inl rfl
  · exact .inr ⟨declaration, child?_eq_some found⟩

theorem SpecifiedBy.inBlocks {p core : Place} (here : SpecifiedBy p core) (there : InBlocks root blocks p.node) :
    InBlocks root blocks core.node := by
  rcases here with rfl | ⟨declaration, found⟩
  · exact there
  · exact .part there (by simp [declaration]) (List.mem_of_find?_eq_some (child?_eq_some found))

theorem every_enumeration {p core outer : Place} (there : InBlocks root blocks p.node)
    (around : s.namespaces = blocks.flatMap (spaces r)) (here : SpecifiedBy p core)
    (construct : core.node.construct = .enumeration) {entry : Entry} (member : entry ∈ enumeration r s core outer) :
    entry.Every (Housed r root) := by
  obtain ⟨name, _, _, named, rfl⟩ := mem_enumeration member
  exact .declared (housed_declare there around (.enumeration here.specifies construct named rfl rfl rfl)) (by simp)

theorem every_function {p : Place} (there : InBlocks root blocks p.node)
    (around : s.namespaces = blocks.flatMap (spaces r)) {declarator : Node} {template : Option TemplateHeader}
    {isDefinition : Bool} (part : declarator ∈ p.node.childrenAt "declarator") {entry : Entry}
    (member : entry ∈ function r s p declarator template isDefinition) : entry.Every (Housed r root) := by
  obtain ⟨_, _, name, _, last, _, _, _, _, found, named, split, callable, rfl⟩ := mem_function member
  have same : last = (QualifiedName.split (r.squashed name)).2 := by rw [split]
  exact .declared (housed_declare there around (.function part found named callable same rfl)) (by simp)

theorem every_declarators {p : Place} (there : InBlocks root blocks p.node)
    (around : s.namespaces = blocks.flatMap (spaces r)) {template : Option TemplateHeader} {entry : Entry}
    (member : entry ∈ declarators r s p template) : entry.Every (Housed r root) := by
  obtain ⟨declarator, part, made⟩ := mem_declarators member
  rcases made with callable | data
  · exact every_function there around part callable
  · obtain ⟨name, _, _, named, rfl⟩ := mem_field data
    exact .declared (housed_declare there around (.field part rfl named rfl)) (by simp)

end

/-- Below a size, the entries of nodes in some blocks are housed there. -/
structure HousedBelow (r : Reading) (root : Node) (size : Nat) : Prop where
  items : ∀ s blocks before nodes, sizeOf nodes < size → s.namespaces = blocks.flatMap (spaces r) →
    (∀ n ∈ nodes, InBlocks root blocks n) → ∀ entry ∈ (items r s before nodes).1, entry.Every (Housed r root)
  visit : ∀ s blocks template p, sizeOf p.node < size → s.namespaces = blocks.flatMap (spaces r) →
    InBlocks root blocks p.node → ∀ entry ∈ (visit r s template p).1, entry.Every (Housed r root)

section
variable {r : Reading} {root : Node} {size : Nat} {s : Surroundings} {blocks : List Node} {entry : Entry}

theorem HousedBelow.items_next (below : HousedBelow r root size) {before nodes : List Node}
    (bound : sizeOf nodes < size + 1) (around : s.namespaces = blocks.flatMap (spaces r))
    (there : ∀ n ∈ nodes, InBlocks root blocks n) (member : entry ∈ (Outline.items r s before nodes).1) :
    entry.Every (Housed r root) := by
  cases nodes with
  | nil =>
    rw [Outline.items] at member
    cases member
  | cons n rest =>
    rw [List.cons.sizeOf_spec] at bound
    obtain ⟨here, later⟩ := List.forall_mem_cons.mp there
    rw [Outline.items] at member
    rcases List.mem_append.mp member with first | others
    · exact below.visit s blocks none ⟨n, before⟩ (by dsimp only; omega) around here entry first
    · -- The later nodes see another access, but the same namespaces.
      exact below.items _ blocks _ rest (by omega) (by exact around) later entry others

theorem HousedBelow.record_next (below : HousedBelow r root size) {tag : RecordTag} {template : Option TemplateHeader}
    {p core outer : Place} (bound : sizeOf core.node < size + 1) (around : s.namespaces = blocks.flatMap (spaces r))
    (there : InBlocks root blocks p.node) (here : SpecifiedBy p core) (construct : core.node.construct = .record tag)
    (member : entry ∈ Outline.record r s tag template core outer) : entry.Every (Housed r root) := by
  obtain ⟨body, found, made⟩ := mem_record member
  have smaller := sizeOf_body_lt found
  have inside : ∀ c ∈ body.node.children, InBlocks root blocks c :=
    fun _ inside => .body (here.inBlocks there) (by simp [construct]) (child?_eq_some found) inside
  rcases made with ⟨_, listed⟩ | ⟨name, enclosing, last, _, _, _, named, split, rfl⟩
  · exact below.items _ blocks [] _ (by omega) (by exact around) inside entry listed
  · have same : last = (QualifiedName.split (r.squashed name)).2 := by rw [split]
    refine .declared (housed_declare there around (.record here.specifies construct named rfl same rfl)) ?_
    exact below.items (s.inRecord enclosing last tag) blocks [] _ (by omega) around inside

theorem HousedBelow.visit_next (below : HousedBelow r root size) {template : Option TemplateHeader} {p : Place}
    (bound : sizeOf p.node < size + 1) (around : s.namespaces = blocks.flatMap (spaces r))
    (there : InBlocks root blocks p.node) (member : entry ∈ (Outline.visit r s template p).1) :
    entry.Every (Housed r root) := by
  have children := Node.sizeOf_children_lt p.node
  cases origin_of_visit member with
  | @block body construct found listed =>
    have smaller := sizeOf_body_lt found
    have inner : (inNamespace r s p.node).namespaces = (blocks ++ [p.node]).flatMap (spaces r) := by
      simp [namespaces_inNamespace, around]
    have inside : ∀ c ∈ body.node.children, InBlocks root (blocks ++ [p.node]) c :=
      fun _ inside => .block there construct (child?_eq_some found) inside
    exact below.items _ _ [] _ (by omega) inner inside entry listed
  | @linked body construct found listed =>
    have smaller := sizeOf_body_lt found
    have inside : ∀ c ∈ body.node.children, InBlocks root blocks c :=
      fun _ inside => .body there (by simp [construct]) (child?_eq_some found) inside
    exact below.items s blocks [] _ (by omega) around inside entry listed
  | inner plain inside listed =>
    have smaller := Place.sizeOf_lt_of_mem_children inside
    have inner := InBlocks.part there plain (Place.mem_of_ofChildren inside)
    exact below.visit s blocks _ _ (by omega) around inner entry listed
  | record here construct listed =>
    have small : sizeOf _ ≤ sizeOf p.node := (within_here .root here).2
    exact below.record_next (by omega) around there here construct listed
  | enumeration here construct listed => exact every_enumeration there around here construct listed
  | declarators listed => exact every_declarators there around listed
  | definition part listed => exact every_function there around part listed
  | children construct listed =>
    have inside : ∀ c ∈ p.node.children, InBlocks root blocks c :=
      fun _ inside => .part there (by simp [construct]) inside
    exact below.items s blocks [] _ (by omega) around inside entry listed
  | inclusion same =>
    rw [same]
    exact .inclusion _

variable (r root) in
theorem housedBelow (size : Nat) : HousedBelow r root size := by
  induction size with
  | zero =>
    exact ⟨fun _ _ _ _ none => absurd none (Nat.not_lt_zero _), fun _ _ _ _ none => absurd none (Nat.not_lt_zero _)⟩
  | succ size below =>
    exact ⟨fun _ _ _ _ bound around there _ member => below.items_next bound around there member,
      fun _ _ _ _ bound around there _ member => below.visit_next bound around there member⟩

theorem housed_outline (r : Reading) (root : Node) :
    ∀ entry ∈ (items r .global [] root.children).1, entry.Every (Housed r root) :=
  (housedBelow r root _).items .global [] [] root.children (Nat.lt_succ_self _) rfl fun _ => .top

end

end Outline

namespace SourceUnit
open Outline

/-- The namespaces of a declaration are those of the blocks around it, outermost first, and start its qualified
name. They are the identifiers of the segments exactly where none is written with `inline`. -/
theorem namespaces_of_declaration (r : Reading) (present : Path → Bool) (root : Node) {id : Nat} {d : Declaration}
    (member : (ofTree r present root).decls[id]? = some d) :
    ∃ blocks n own, InBlocks root blocks n ∧ Declares r n d ∧ own ≠ [] ∧
      d.qualifiedName = Text.join "::" (d.namespaces ++ own) ∧
      ∀ headings : List (List NamespaceSegment), List.Forall₂ (Headed r) blocks headings →
        d.namespaces = headings.flatten.map NamespaceSegment.recorded ∧
        (d.namespaces = headings.flatten.map NamespaceSegment.identifier ↔
          ∀ segment ∈ headings.flatten, segment.inlined = none) := by
  have housed : Holds (Housed r root) (ofTree r present root) := holds_ofTree (housed_outline r root)
  obtain ⟨blocks, n, own, there, declares, around, some, qualified⟩ := housed id d member
  have around : d.namespaces = blocks.flatMap (spaces r) := around
  refine ⟨blocks, n, own, there, declares.alike rfl rfl rfl, some, qualified, fun headings headed => ?_⟩
  rw [around, spaces_of_forall_headed headed]
  refine ⟨rfl, List.map_inj_left.trans ?_⟩
  exact forall₂_congr fun _ _ => NamespaceSegment.recorded_eq_identifier_iff

/-- A block whose name has a segment that is written with `inline`. -/
def inlinedBlock : Reading := ⟨"namespace a::inline b \x7b struct S \x7b int x; \x7d; \x7d\n", ⟨"test.hpp"⟩, [], true⟩

def inlinedBlockName : Node :=
  node 3 "nested_namespace_specifier" "name" 10 21 [node 4 "namespace_identifier" "" 10 11 [], token 5 "::" 11,
    token 6 "inline" 13, node 7 "namespace_identifier" "" 20 21 []]

def inlinedBlockRecord : Node :=
  node 10 "struct_specifier" "" 24 43 [token 11 "struct" 24, node 12 "type_identifier" "name" 31 32 [],
    node 13 "field_declaration_list" "body" 33 43 [token 14 "\x7b" 33,
      node 15 "field_declaration" "" 35 41 [node 16 "primitive_type" "type" 35 38 [],
        node 17 "field_identifier" "declarator" 39 40 [], token 18 ";" 40], token 19 "\x7d" 42]]

def inlinedBlockBody : Node :=
  node 8 "declaration_list" "body" 22 46 [token 9 "\x7b" 22, inlinedBlockRecord, token 20 ";" 43, token 21 "\x7d" 45]

def inlinedBlockNode : Node :=
  node 1 "namespace_definition" "" 0 46 [token 2 "namespace" 0, inlinedBlockName, inlinedBlockBody]

def inlinedBlockTree : Node := node 0 "translation_unit" "" 0 47 [inlinedBlockNode]

def inlinedSegments : List NamespaceSegment :=
  [⟨[], none, ['a'], []⟩, ⟨[], some [' '], ['b'], []⟩]

def recordInBlock : Declaration where
  kind := .structType
  name := "S"
  qualifiedName := "a::inline b::S"
  namespaces := ["a", "inline b"]
  enclosingRecords := []
  location := ⟨⟨"test.hpp"⟩, 1, 25⟩
  annotations := []
  templateParams := []
  access := .publicMember
  parent := none
  children := [1]
  detail := .record ⟨.structTag, []⟩

theorem namespaces_of_declaration_inlined :
    (ofTree inlinedBlock (fun _ => false) inlinedBlockTree).decls[0]? = some recordInBlock ∧
      ∃ blocks n own, InBlocks inlinedBlockTree blocks n ∧ Declares inlinedBlock n recordInBlock ∧ own ≠ [] ∧
        "a::inline b::S" = Text.join "::" (["a", "inline b"] ++ own) ∧
        ∀ headings : List (List NamespaceSegment), List.Forall₂ (Headed inlinedBlock) blocks headings →
          ["a", "inline b"] = headings.flatten.map NamespaceSegment.recorded ∧
          (["a", "inline b"] = headings.flatten.map NamespaceSegment.identifier ↔
            ∀ segment ∈ headings.flatten, segment.inlined = none) := by
  have member : (ofTree inlinedBlock (fun _ => false) inlinedBlockTree).decls[0]? = some recordInBlock := by
    decide +kernel
  exact ⟨member, namespaces_of_declaration inlinedBlock _ inlinedBlockTree member⟩

/-- The record is in one block with the identifiers `a` and `b`, and is recorded in `a` and `inline b`. -/
theorem inline_kept_in_namespace :
    (ofTree inlinedBlock (fun _ => false) inlinedBlockTree).decls[0]? = some recordInBlock ∧
      InBlocks inlinedBlockTree [inlinedBlockNode] inlinedBlockRecord ∧
      Declares inlinedBlock inlinedBlockRecord recordInBlock ∧ Headed inlinedBlock inlinedBlockNode inlinedSegments ∧
      inlinedSegments.map NamespaceSegment.identifier = ["a", "b"] ∧
      recordInBlock.namespaces ≠ inlinedSegments.map NamespaceSegment.identifier := by
  refine ⟨by decide +kernel, ?_, ?_, ?_, by decide, by decide⟩
  · have block : inlinedBlockNode.construct = .namespaceBlock := by decide +kernel
    have body : inlinedBlockNode.child? "body" = some inlinedBlockBody := rfl
    exact .block (.top (.head _)) block body (.tail _ (.head _))
  · have record : inlinedBlockRecord.construct = .record .structTag := by decide +kernel
    exact .record (.inl rfl) record rfl rfl (by decide +kernel) (by decide +kernel)
  · have named : inlinedBlockNode.child? "name" = some inlinedBlockName := rfl
    refine .named named (by decide) (List.forall_mem_cons.mpr ⟨?_, List.forall_mem_singleton.mpr ?_⟩)
      (by decide +kernel)
    · exact ⟨by decide, by decide, by decide, by decide, List.forall_mem_singleton.mpr (by decide), by decide⟩
    · exact ⟨by decide, by decide, by decide, by decide, List.forall_mem_singleton.mpr (by decide), by decide⟩

end SourceUnit

end MarkerGen
