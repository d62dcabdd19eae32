import Mathlib.Data.List.Basic
import MarkerGen.SourceTree.Outline

/-! Names in the outline of a source tree. An entry is named after its surroundings and after what
is written at its own node, and the members of a record are named after the record as well. -/
namespace MarkerGen

/-- A node of a tree. -/
inductive Node.Within (root : Node) : Node → Prop
  | root : Within root root
  | child {n c : Node} (above : Within root n) (inside : c ∈ n.children) : Within root c

theorem Text.join_append_join {pieces : List String} (sep : String) (front : List String) (some : pieces ≠ []) :
    join sep (front ++ [join sep pieces]) = join sep (front ++ pieces) := by
  induction front with
  | nil => rfl
  | cons piece rest ih =>
    cases rest with
    | nil =>
      obtain ⟨first, others, rfl⟩ := List.exists_cons_of_ne_nil some
      rfl
    | cons next others =>
      rw [List.cons_append, List.cons_append, List.cons_append, List.cons_append, join, join, ← List.cons_append,
        ← List.cons_append, ih]

namespace QualifiedName

/-- The segments of a name between `::` outside angle brackets. -/
def segments (text : String) : List String :=
  (segmentsFrom 0 text.toList).map fun segment => String.ofList (Chars.trim segment)

/-- The segments that a name adds to those around it: the ones that are not empty, and the last one
in any case. -/
def own (text : String) : List String :=
  (segments text).dropLast.filter (· ≠ "") ++ [(segments text).getLast?.getD ""]

theorem segmentsFrom_ne_nil (depth : Int) (text : List Char) : segmentsFrom depth text ≠ [] := by
  have extended (c : Char) (segments : List (List Char)) : segmentsFrom.extend c segments ≠ [] := by
    cases segments <;> simp [segmentsFrom.extend]
  unfold segmentsFrom
  split
  · simp
  · split
    · split
      · simp
      · exact extended _ _
    · exact extended _ _
    · exact extended _ _
    · exact extended _ _

theorem own_eq_split (text : String) : own text = (split text).1 ++ [(split text).2] := by
  obtain ⟨trimmed, same⟩ : ∃ trimmed, (segmentsFrom 0 text.toList).map Chars.trim = trimmed := ⟨_, rfl⟩
  have pieces : segments text = trimmed.map String.ofList := by simp [segments, ← same]
  have parts : (split text).1 ++ [(split text).2] =
      (trimmed.dropLast.filter (!·.isEmpty)).map String.ofList ++ [String.ofList (trimmed.getLast?.getD [])] := by
    rw [← same]
    rfl
  rw [parts, own, pieces, ← List.map_dropLast, List.filter_map, List.getLast?_map]
  congr 2
  · apply List.filter_congr
    intro segment _
    cases segment <;> simp
  · cases trimmed.getLast? <;> rfl

/-- A name that does not end in `::` adds all its segments that are not empty. -/
theorem own_eq_filter {text : String} (ends : (segments text).getLast? ≠ some "") :
    own text = (segments text).filter (· ≠ "") := by
  have some : segments text ≠ [] := by simp [segments, segmentsFrom_ne_nil]
  have last := List.getLast?_eq_some_getLast some
  rw [last, ne_eq, Option.some.injEq] at ends
  conv_rhs => rw [← List.dropLast_append_getLast some, List.filter_append]
  rw [own, last]
  simp [ends]

end QualifiedName

/-- The segments of a name of some kind that a tree has at a place. -/
inductive Written (r : Reading) (root : Node) : Kind → Location → List String → Prop
  | record {n name : Node} {tag : RecordTag} (within : root.Within n) (construct : n.construct = .record tag)
      (named : n.child? "name" = some name) :
      Written r root tag.kind (r.location n) (QualifiedName.own (r.squashed name))
  | enumeration {n name : Node} (within : root.Within n) (construct : n.construct = .enumeration)
      (named : n.child? "name" = some name) : Written r root .enumeration (r.location n) [r.squashed name]
  | function {n declarator func name : Node} {around : List Node} {kind : Kind} (within : root.Within n)
      (part : declarator ∈ n.childrenAt "declarator")
      (found : Reading.functionDeclarator? declarator = some (around, func))
      (named : func.child? "declarator" = some name) (callable : kind = .function ∨ kind = .method) :
      Written r root kind (r.location n) (QualifiedName.own (r.squashed name))
  | field {n declarator : Node} {name : String} (within : root.Within n) (part : declarator ∈ n.childrenAt "declarator")
      (named : r.declaratorName? declarator = some name) : Written r root .field (r.location declarator) [name]

/-- An entry inside records that is named after them and after what is written for it, with members
that are named after it in turn. -/
inductive Entry.Fits (r : Reading) (root : Node) : List String → Entry → Prop
  | inclusion {records : List String} (inclusion : Inclusion) : Fits r root records (.inclusion inclusion)
  | declared {records own : List String} {head : Declaration} {members : List Entry}
      (written : Written r root head.kind head.location own) (last : own.getLast? = some head.name)
      (enclosing : head.enclosingRecords = records)
      (qualified : head.qualifiedName = Text.join "::" (head.namespaces ++ records ++ own))
      (childless : head.children = []) (owner : members ≠ [] → head.kind.isRecord = true)
      (inside : ∀ member ∈ members, Fits r root (records ++ own) member) :
      Fits r root records (.declared head members)

namespace Outline
variable {r : Reading} {root : Node} {s : Surroundings}

theorem fits_declare {kind : Kind} {name : String} {enclosing : List String} {location : Location}
    {annotations : List String} {templateParams : List TemplateParam} {detail : Detail} {members : List Entry}
    (written : Written r root kind location (enclosing ++ [name])) (owner : members ≠ [] → kind.isRecord = true)
    (inside : ∀ member ∈ members, member.Fits r root (s.records ++ (enclosing ++ [name]))) :
    Entry.Fits r root s.records
      (.declared (s.declare kind name enclosing location annotations templateParams detail) members) := by
  refine .declared written List.getLast?_concat rfl ?_ rfl owner inside
  exact Text.join_append_join "::" (s.namespaces ++ s.records) (by simp)

/-! ### What the entries of a node are -/

theorem mem_enumeration {core outer : Place} {entry : Entry} (member : entry ∈ enumeration r s core outer) :
    ∃ name annotations info, core.node.child? "name" = some name ∧
      entry = .declared (s.declare .enumeration (r.squashed name) [] (r.location core.node) annotations []
        (.enumeration info)) [] := by
  unfold enumeration at member
  dsimp only at member
  split at member
  next body name _ named => exact ⟨name, _, _, named, List.mem_singleton.mp member⟩
  next => cases member

theorem mem_function {core : Place} {declarator : Node} {template : Option TemplateHeader} {isDefinition : Bool}
    {entry : Entry} (member : entry ∈ function r s core declarator template isDefinition) :
    ∃ around func name enclosing last kind annotations params info,
      Reading.functionDeclarator? declarator = some (around, func) ∧ func.child? "declarator" = some name ∧
      QualifiedName.split (r.squashed name) = (enclosing, last) ∧ (kind = .function ∨ kind = .method) ∧
      entry = .declared (s.declare kind last enclosing (r.location core.node) annotations params (.function info)) [] := by
  unfold function at member
  split at member
  next => cases member
  next around func found =>
    split at member
    next => cases member
    next name named =>
      split at member
      next => cases member
      next =>
        have callable : (if s.recordName.isSome then Kind.method else .function) = .function ∨
            (if s.recordName.isSome then Kind.method else .function) = .method := by
          split <;> simp
        rcases split : QualifiedName.split (r.squashed name) with ⟨enclosing, last⟩
        rw [split] at member
        exact ⟨around, func, name, enclosing, last, _, _, _, _, found, named, split, callable, List.mem_singleton.mp member⟩

theorem mem_field {core outer : Place} {declarator : Node} {entry : Entry}
    (member : entry ∈ field r s core declarator outer) :
    ∃ name annotations info, r.declaratorName? declarator = some name ∧
      entry = .declared (s.declare .field name [] (r.location declarator) annotations [] (.field info)) [] := by
  unfold field at member
  split at member
  next => cases member
  next name named => exact ⟨name, _, _, named, List.mem_singleton.mp member⟩

theorem mem_declarators {core : Place} {template : Option TemplateHeader} {entry : Entry}
    (member : entry ∈ declarators r s core template) : ∃ declarator ∈ core.node.childrenAt "declarator",
      entry ∈ function r s core declarator template false ∨ entry ∈ field r s core declarator (outerOf template core) := by
  obtain ⟨declarator, part, made⟩ := List.mem_flatMap.mp member
  refine ⟨declarator, part, ?_⟩
  split at made
  · exact .inl made
  · split at made
    · exact .inr made
    · cases made

/-- A record gives itself with its members, or its members alone if it has no name. -/
theorem mem_record {tag : RecordTag} {template : Option TemplateHeader} {core outer : Place} {entry : Entry}
    (member : entry ∈ record r s tag template core outer) : ∃ body, core.child? "body" = some body ∧
      (core.node.child? "name" = none ∧
          entry ∈ (items r { s with access := tag.defaultAccess } [] body.node.children).1 ∨
        ∃ name enclosing last annotations params info, core.node.child? "name" = some name ∧
          QualifiedName.split (r.squashed name) = (enclosing, last) ∧
          entry = .declared
            (s.declare tag.kind last enclosing (r.location core.node) annotations params (.record info))
            (items r (s.inRecord enclosing last tag) [] body.node.children).1) := by
  rw [record] at member
  split at member
  · cases member
  next body found =>
    refine ⟨body, found, ?_⟩
    split at member
    next unnamed => exact .inl ⟨unnamed, member⟩
    next name named =>
      rcases split : QualifiedName.split (r.squashed name) with ⟨enclosing, last⟩
      rw [split] at member
      exact .inr ⟨name, enclosing, last, _, _, _, named, split, List.mem_singleton.mp member⟩

/-! ### Names -/

theorem fits_enumeration {core outer : Place} (within : root.Within core.node)
    (construct : core.node.construct = .enumeration) {entry : Entry} (member : entry ∈ enumeration r s core outer) :
    entry.Fits r root s.records := by
  obtain ⟨name, _, _, named, rfl⟩ := mem_enumeration member
  exact fits_declare (.enumeration within construct named) (by simp) (by simp)

theorem fits_function {core : Place} {declarator : Node} {template : Option TemplateHeader} {isDefinition : Bool}
    (within : root.Within core.node) (part : declarator ∈ core.node.childrenAt "declarator") {entry : Entry}
    (member : entry ∈ function r s core declarator template isDefinition) : entry.Fits r root s.records := by
  obtain ⟨_, _, name, _, _, _, _, _, _, found, named, split, callable, rfl⟩ := mem_function member
  have written := Written.function (r := r) within part found named callable
  rw [QualifiedName.own_eq_split, split] at written
  exact fits_declare written (by simp) (by simp)

theorem fits_declarators {core : Place} {template : Option TemplateHeader} (within : root.Within core.node)
    {entry : Entry} (member : entry ∈ declarators r s core template) : entry.Fits r root s.records := by
  obtain ⟨declarator, part, made⟩ := mem_declarators member
  rcases made with callable | data
  · exact fits_function within part callable
  · obtain ⟨name, _, _, named, rfl⟩ := mem_field data
    exact fits_declare (.field within part named) (by simp) (by simp)

theorem within_children {n : Node} (within : root.Within n) : ∀ c ∈ n.children, root.Within c :=
  fun _ inside => .child within inside

theorem within_child {p c : Place} (within : root.Within p.node) (inside : c ∈ p.children) : root.Within c.node :=
  .child within (Place.mem_of_ofChildren inside)

theorem within_child? {p c : Place} {field : String} (within : root.Within p.node) (found : p.child? field = some c) :
    root.Within c.node :=
  within_child within (List.mem_of_find?_eq_some found)

theorem sizeOf_body_lt {p body : Place} {field : String} (found : p.child? field = some body) :
    sizeOf body.node.children < sizeOf p.node :=
  Nat.lt_trans (Node.sizeOf_children_lt _) (Place.sizeOf_lt_of_child? found)

/-- The place of the record or enumeration that a node may specify. -/
def SpecifiedBy (p core : Place) : Prop := core = p ∨ p.node.construct = .declaration ∧ p.child? "type" = some core

theorem within_here {p core : Place} (within : root.Within p.node) (here : SpecifiedBy p core) :
    root.Within core.node ∧ sizeOf core.node ≤ sizeOf p.node := by
  rcases here with rfl | ⟨_, found⟩
  · exact ⟨within, Nat.le_refl _⟩
  · exact ⟨within_child? within found, Nat.le_of_lt (Place.sizeOf_lt_of_child? found)⟩

theorem records_inNamespace (r : Reading) (s : Surroundings) (n : Node) : (inNamespace r s n).records = s.records := by
  unfold inNamespace
  split <;> rfl

/-- Where an entry of a node comes from. -/
inductive Origin (r : Reading) (s : Surroundings) (template : Option TemplateHeader) (p : Place) (entry : Entry) : Prop
  | block {body : Place} (construct : p.node.construct = .namespaceBlock) (found : p.child? "body" = some body)
      (listed : entry ∈ (items r (inNamespace r s p.node) [] body.node.children).1)
  | linked {body : Place} (construct : p.node.construct = .linkage) (found : p.child? "body" = some body)
      (listed : entry ∈ (items r s [] body.node.children).1)
  | inner {header : Option TemplateHeader} {inner : Place} (construct : p.node.construct ≠ .namespaceBlock)
      (inside : inner ∈ p.children) (listed : entry ∈ (visit r s header inner).1)
  | record {tag : RecordTag} {core outer : Place} (here : SpecifiedBy p core)
      (construct : core.node.construct = .record tag) (listed : entry ∈ record r s tag template core outer)
  | enumeration {core outer : Place} (here : SpecifiedBy p core)
      (construct : core.node.construct = .enumeration) (listed : entry ∈ enumeration r s core outer)
  | declarators (listed : entry ∈ declarators r s p template)
  | definition {declarator : Node} (part : declarator ∈ p.node.childrenAt "declarator")
      (listed : entry ∈ function r s p declarator template true)
  | children (construct : p.node.construct = .conditional) (listed : entry ∈ (items r s [] p.node.children).1)
  | inclusion {inclusion : Inclusion} (same : entry = .inclusion inclusion)

theorem origin_of_visit {template : Option TemplateHeader} {p : Place} {entry : Entry}
    (member : entry ∈ (visit r s template p).1) : Origin r s template p entry := by
  rw [visit] at member
  -- One case for each construct, in the order of the definition.
  split at member
  next construct =>
    split at member
    · cases member
    next body found => exact .block construct found member
  next construct =>
    split at member
    · cases member
    next body found =>
      split at member
      · exact .linked construct found member
      · exact .inner (by simp [construct]) (List.mem_of_find?_eq_some found) member
  next construct =>
    split at member
    · cases member
    next inner found => exact .inner (by simp [construct]) (List.mem_of_find?_eq_some found) member
  next tag construct => exact .record (.inl rfl) construct member
  next construct => exact .enumeration (.inl rfl) construct member
  next construct =>
    rcases List.mem_append.mp member with specified | declared
    · split at specified
      · cases specified
      next type found =>
        have here : SpecifiedBy p type := .inr ⟨construct, found⟩
        split at specified
        next tag record => exact .record here record specified
        next enumeration => exact .enumeration here enumeration specified
        next => cases specified
    · exact .declarators declared
  next =>
    split at member
    · cases member
    next declarator found =>
      have listed : declarator ∈ p.node.children := List.mem_of_find?_eq_some found
      have named := List.find?_some (p := fun c : Node => c.field == "declarator") found
      exact .definition (List.mem_filter.mpr ⟨listed, named⟩) member
  next => cases member
  next construct => exact .children construct member
  next =>
    obtain ⟨inclusion, _, same⟩ := List.mem_map.mp member
    exact .inclusion same.symm
  next => cases member

structure FitBelow (r : Reading) (root : Node) (size : Nat) : Prop where
  items : ∀ s before nodes, sizeOf nodes < size → (∀ n ∈ nodes, root.Within n) →
    ∀ entry ∈ (items r s before nodes).1, entry.Fits r root s.records
  record : ∀ s tag template core outer, sizeOf core.node < size → root.Within core.node →
    core.node.construct = .record tag → ∀ entry ∈ record r s tag template core outer, entry.Fits r root s.records
  visit : ∀ s template p, sizeOf p.node < size → root.Within p.node →
    ∀ entry ∈ (visit r s template p).1, entry.Fits r root s.records

section
variable {size : Nat}

theorem FitBelow.items_next (below : FitBelow r root size) {before nodes : List Node} (bound : sizeOf nodes < size + 1)
    (within : ∀ n ∈ nodes, root.Within n) {entry : Entry} (member : entry ∈ (Outline.items r s before nodes).1) :
    entry.Fits r root s.records := by
  cases nodes with
  | nil =>
    rw [Outline.items] at member
    cases member
  | cons n rest =>
    rw [List.cons.sizeOf_spec] at bound
    rw [Outline.items] at member
    rcases List.mem_append.mp member with here | later
    · exact below.visit s none ⟨n, before⟩ (by dsimp only; omega) (within n List.mem_cons_self) entry here
    · have others : ∀ other ∈ rest, root.Within other :=
        fun other inside => within other (List.mem_cons_of_mem _ inside)
      -- The later nodes see another access, but the same records.
      have fits := below.items _ _ rest (by omega) others entry later
      exact fits

theorem FitBelow.record_next (below : FitBelow r root size) {tag : RecordTag} {template : Option TemplateHeader}
    {core outer : Place} (bound : sizeOf core.node < size + 1) (within : root.Within core.node)
    (construct : core.node.construct = .record tag) {entry : Entry}
    (member : entry ∈ Outline.record r s tag template core outer) : entry.Fits r root s.records := by
  obtain ⟨body, found, made⟩ := mem_record member
  have smaller := sizeOf_body_lt found
  have inside := within_children (within_child? within found)
  rcases made with ⟨_, listed⟩ | ⟨name, _, _, _, _, _, named, split, rfl⟩
  · have fits := below.items _ _ _ (by omega) inside entry listed
    exact fits
  · have written := Written.record (r := r) within construct named
    rw [QualifiedName.own_eq_split, split] at written
    refine fits_declare written (fun _ => by cases tag <;> rfl) fun inner listed => ?_
    rw [← List.append_assoc]
    exact below.items (s.inRecord _ _ tag) [] _ (by omega) inside inner listed

theorem FitBelow.visit_next (below : FitBelow r root size) {template : Option TemplateHeader} {p : Place}
    (bound : sizeOf p.node < size + 1) (within : root.Within p.node) {entry : Entry}
    (member : entry ∈ (Outline.visit r s template p).1) : entry.Fits r root s.records := by
  have children := Node.sizeOf_children_lt p.node
  cases origin_of_visit member with
  | block _ found listed =>
    have smaller := sizeOf_body_lt found
    rw [← records_inNamespace r s p.node]
    exact below.items _ [] _ (by omega) (within_children (within_child? within found)) entry listed
  | linked _ found listed =>
    have smaller := sizeOf_body_lt found
    exact below.items s [] _ (by omega) (within_children (within_child? within found)) entry listed
  | inner _ inside listed =>
    have smaller := Place.sizeOf_lt_of_mem_children inside
    exact below.visit s _ _ (by omega) (within_child within inside) entry listed
  | record here construct listed =>
    -- The record may be the node itself, so the bound of the step is needed here.
    obtain ⟨inside, small⟩ := within_here within here
    exact below.record_next (by omega) inside construct listed
  | enumeration here construct listed => exact fits_enumeration (within_here within here).1 construct listed
  | declarators listed => exact fits_declarators within listed
  | definition part listed => exact fits_function within part listed
  | children _ listed => exact below.items s [] _ (by omega) (within_children within) entry listed
  | inclusion same =>
    rw [same]
    exact .inclusion _

end

variable (r root) in
theorem fitBelow (size : Nat) : FitBelow r root size := by
  induction size with
  | zero =>
    exact ⟨fun _ _ _ none => absurd none (Nat.not_lt_zero _), fun _ _ _ _ _ none => absurd none (Nat.not_lt_zero _),
      fun _ _ _ none => absurd none (Nat.not_lt_zero _)⟩
  | succ size below =>
    exact ⟨fun _ _ _ bound within _ member => below.items_next bound within member,
      fun _ _ _ _ _ bound within construct _ member => below.record_next bound within construct member,
      fun _ _ _ bound within _ member => below.visit_next bound within member⟩

theorem fits_outline (r : Reading) (root : Node) :
    ∀ entry ∈ (items r .global [] root.children).1, entry.Fits r root [] :=
  (fitBelow r root _).items .global [] root.children (Nat.lt_succ_self _) (within_children .root)

end Outline

end MarkerGen
