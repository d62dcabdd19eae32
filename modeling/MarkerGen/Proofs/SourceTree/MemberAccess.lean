import MarkerGen.Proofs.SourceTree.Names
import MarkerGen.Proofs.SourceTree.Parents

/-! The access of members. A member has the access of the last access specifier in front of it in the
body of its record, or the one that the record starts with. A member of an unnamed record has the record
around it as its parent, but its access is that of the body of the unnamed record. -/
namespace MarkerGen

mutual
/-- The nodes that a node stands for: preprocessor conditionals, linkage blocks and template headers
stand for what is in them. -/
def Node.spread (n : Node) : List Node :=
  match n.construct with
  | .conditional => spreadAll n.children
  | .linkage =>
    match _found : n.child? "body" with
    | none => []
    | some body => if body.kind = "declaration_list" then spreadAll body.children else spread body
  | .template =>
    match _found : Outline.templated? ⟨n, []⟩ with
    | none => []
    | some inner => spread inner.node
  | _ => [n]
termination_by sizeOf n
decreasing_by
  · exact Node.sizeOf_children_lt _
  · exact Nat.lt_trans (Node.sizeOf_children_lt _) (Node.sizeOf_lt_of_child? _found)
  · exact Node.sizeOf_lt_of_child? _found
  · exact Outline.sizeOf_lt_of_templated? _found

def Node.spreadAll : List Node → List Node
  | [] => []
  | n :: rest => spread n ++ spreadAll rest
termination_by nodes => sizeOf nodes
decreasing_by
  · simp only [List.cons.sizeOf_spec]; omega
  · simp only [List.cons.sizeOf_spec]; omega
end

namespace Outline

/-- The access behind some nodes: that of the last access specifier among them. -/
def accessAfter (r : Reading) (start : Access) (nodes : List Node) : Access :=
  ((nodes.filter (·.construct == .accessSpecifier)).getLast?.map (accessOf r)).getD start

/-- A node in a body that starts with some access, and the access in force at it. The body of a namespace
block goes on with the access in front of the block, which is also the one behind it. -/
inductive Stands (r : Reading) : Access → List Node → Node → Access → Prop
  | here {start : Access} {nodes front back : List Node} {n : Node} (split : nodes = front ++ n :: back) :
      Stands r start nodes n (accessAfter r start front)
  | block {start a b : Access} {nodes : List Node} {block body n : Node} (outer : Stands r start nodes block a)
      (construct : block.construct = .namespaceBlock) (found : block.child? "body" = some body)
      (inner : Stands r a (Node.spreadAll body.children) n b) : Stands r start nodes n b

/-- The node of the record or enumeration that a node may specify. -/
def Specifies (n core : Node) : Prop := core = n ∨ n.construct = .declaration ∧ n.child? "type" = some core

/-- What a node declares by itself. -/
inductive Declares (r : Reading) (n : Node) (d : Declaration) : Prop
  | record {core name : Node} {tag : RecordTag} (here : Specifies n core) (construct : core.construct = .record tag)
      (named : core.child? "name" = some name) (kind : d.kind = tag.kind)
      (same : d.name = (QualifiedName.split (r.squashed name)).2) (location : d.location = r.location core)
  | enumeration {core name : Node} (here : Specifies n core) (construct : core.construct = .enumeration)
      (named : core.child? "name" = some name) (kind : d.kind = .enumeration) (same : d.name = r.squashed name)
      (location : d.location = r.location core)
  | function {declarator func name : Node} {around : List Node} (part : declarator ∈ n.childrenAt "declarator")
      (found : Reading.functionDeclarator? declarator = some (around, func))
      (named : func.child? "declarator" = some name) (kind : d.kind = .function ∨ d.kind = .method)
      (same : d.name = (QualifiedName.split (r.squashed name)).2) (location : d.location = r.location n)
  | field {declarator : Node} (part : declarator ∈ n.childrenAt "declarator") (kind : d.kind = .field)
      (named : r.declaratorName? declarator = some d.name) (location : d.location = r.location declarator)

/-- A node that specifies an unnamed record with a body. -/
inductive Unnamed (n : Node) (tag : RecordTag) (body : Node) : Prop
  | intro {core : Node} (here : Specifies n core) (construct : core.construct = .record tag)
      (unnamed : core.child? "name" = none) (found : core.child? "body" = some body)

/-- A declaration among some nodes and the access that is recorded for it. Within an unnamed record it is
the access in the body of that record. -/
inductive Recorded (r : Reading) : Access → List Node → Declaration → Access → Prop
  | own {start a : Access} {nodes : List Node} {n : Node} {d : Declaration} (stands : Stands r start nodes n a)
      (declares : Declares r n d) : Recorded r start nodes d a
  | unnamed {start a b : Access} {nodes : List Node} {n body : Node} {tag : RecordTag} {d : Declaration}
      (stands : Stands r start nodes n a) (within : Unnamed n tag body)
      (inner : Recorded r tag.defaultAccess (Node.spreadAll body.children) d b) : Recorded r start nodes d b

/-- The node of a named record with its body. -/
structure Opens (r : Reading) (n : Node) (tag : RecordTag) (body : Node) (d : Declaration) : Prop where
  construct : n.construct = .record tag
  kind : d.kind = tag.kind
  named : ∃ name, n.child? "name" = some name ∧ d.name = (QualifiedName.split (r.squashed name)).2
  location : d.location = r.location n
  found : n.child? "body" = some body

/-- A declaration with its access among what the body of a record of the tree records. -/
def MemberOf (r : Reading) (root : Node) (owner d : Declaration) : Prop :=
  ∃ n tag body, root.Within n ∧ Opens r n tag body owner ∧
    Recorded r tag.defaultAccess (Node.spreadAll body.children) d d.access

section
variable {r : Reading} {start a : Access} {front nodes back : List Node} {n : Node} {d : Declaration}

/-! ### Nodes in a body -/

theorem node_child? (p : Place) (field : String) : (p.child? field).map (·.node) = p.node.child? field := by
  have go (before nodes : List Node) : ((Place.ofChildren before nodes).find? (·.node.field == field)).map (·.node) =
      nodes.find? (·.field == field) := by
    induction nodes generalizing before with
    | nil => rfl
    | cons n rest ih =>
      rw [Place.ofChildren, List.find?_cons, List.find?_cons]
      split
      next same => simp [same]
      next other => simpa [other] using ih _
  exact go [] _

theorem child?_eq_some {p c : Place} {field : String} (found : p.child? field = some c) :
    p.node.child? field = some c.node := by
  rw [← node_child?, found, Option.map_some]

theorem spread_conditional (construct : n.construct = .conditional) : n.spread = Node.spreadAll n.children := by
  rw [Node.spread, construct]

theorem spread_linkage {p : Place} (construct : p.node.construct = .linkage) :
    p.node.spread = match p.child? "body" with
      | none => []
      | some body =>
        if body.node.kind = "declaration_list" then Node.spreadAll body.node.children else body.node.spread := by
  have same := node_child? p "body"
  rw [Node.spread, construct]
  dsimp only
  cases found : p.child? "body" <;> rw [found] at same <;> split <;> simp_all

theorem spread_template {p : Place} (construct : p.node.construct = .template) :
    p.node.spread = match templated? p with
      | none => []
      | some inner => inner.node.spread := by
  have same : templated? ⟨p.node, []⟩ = templated? p := rfl
  rw [Node.spread, construct]
  dsimp only
  split
  next found => rw [← same, found]
  next inner found => rw [← same, found]

theorem spread_single {c : Construct} (construct : n.construct = c)
    (alone : c ∉ [.conditional, .linkage, .template]) : n.spread = [n] := by
  subst construct
  rw [Node.spread]
  split <;> simp_all

theorem accessAfter_append (r : Reading) (start : Access) (front back : List Node) :
    accessAfter r start (front ++ back) = accessAfter r (accessAfter r start front) back := by
  unfold accessAfter
  rw [List.filter_append, List.getLast?_append]
  cases (back.filter (·.construct == .accessSpecifier)).getLast? <;> simp

theorem accessAfter_plain (plain : n.construct ≠ .accessSpecifier) : accessAfter r start [n] = start := by
  simp [accessAfter, plain]

theorem Stands.within (front back : List Node) (stands : Stands r (accessAfter r start front) nodes n a) :
    Stands r start (front ++ nodes ++ back) n a := by
  generalize opened : accessAfter r start front = begun at stands
  induction stands with
  | @here _ nodes before after n split =>
    have whole : front ++ nodes ++ back = front ++ before ++ n :: (after ++ back) := by simp [split]
    rw [← opened, ← accessAfter_append]
    exact .here whole
  | block _ construct found inner outer _ => exact .block (outer opened) construct found inner

theorem Recorded.within (front back : List Node) (recorded : Recorded r (accessAfter r start front) nodes d a) :
    Recorded r start (front ++ nodes ++ back) d a := by
  cases recorded with
  | own stands declares => exact .own (stands.within front back) declares
  | unnamed stands within inner => exact .unnamed (stands.within front back) within inner

theorem stands_only (r : Reading) (start : Access) (n : Node) : Stands r start [n] n start :=
  @Stands.here r start [n] [] [] n rfl

theorem Recorded.block {body : Node} (recorded : Recorded r start (Node.spreadAll body.children) d a)
    (construct : n.construct = .namespaceBlock) (found : n.child? "body" = some body) : Recorded r start [n] d a := by
  have outer := stands_only r start n
  cases recorded with
  | own stands declares => exact .own (.block outer construct found stands) declares
  | unnamed stands within inner => exact .unnamed (.block outer construct found stands) within inner

/-- Nothing but the kind, the name and the location of a declaration is looked at. -/
theorem Declares.alike {e : Declaration} (declares : Declares r n d) (kind : e.kind = d.kind) (name : e.name = d.name)
    (location : e.location = d.location) : Declares r n e := by
  cases declares with
  | record here construct named kindOf same there =>
    exact .record here construct named (kind.trans kindOf) (name.trans same) (location.trans there)
  | enumeration here construct named kindOf same there =>
    exact .enumeration here construct named (kind.trans kindOf) (name.trans same) (location.trans there)
  | function part found named kindOf same there =>
    exact .function part found named (kind ▸ kindOf) (name.trans same) (location.trans there)
  | field part kindOf named there => exact .field part (kind.trans kindOf) (name ▸ named) (location.trans there)

theorem Recorded.alike {e : Declaration} (recorded : Recorded r start nodes d a) (kind : e.kind = d.kind)
    (name : e.name = d.name) (location : e.location = d.location) : Recorded r start nodes e a := by
  induction recorded with
  | own stands declares => exact .own stands (declares.alike kind name location)
  | unnamed stands within _ ih => exact .unnamed stands within (ih kind name location)

end

/-! ### The outline -/

/-- An entry with the access that is recorded for it among some nodes, and with members for which the
same holds in the body of their record. -/
def Stated (r : Reading) (root : Node) (start : Access) (nodes : List Node) : Entry → Prop
  | .inclusion _ => True
  | .declared head members => Recorded r start nodes head head.access ∧
      Entry.Nested (MemberOf r root) (.declared head members)

structure States (r : Reading) (root : Node) (start : Access) (nodes : List Node) (found : List Entry × Access) :
    Prop where
  access : found.2 = accessAfter r start nodes
  entries : ∀ entry ∈ found.1, Stated r root start nodes entry

section
variable {r : Reading} {root : Node} {start : Access} {front nodes : List Node} {entry : Entry} {n : Node}
  {s : Surroundings}

theorem Stated.imp {other : Access} {around : List Node} (stated : Stated r root start nodes entry)
    (moved : ∀ d a, Recorded r start nodes d a → Recorded r other around d a) : Stated r root other around entry := by
  cases entry with
  | inclusion => trivial
  | declared head members => exact ⟨moved _ _ stated.1, stated.2⟩

theorem Stated.nested (stated : Stated r root start nodes entry) : entry.Nested (MemberOf r root) := by
  cases entry with
  | inclusion inclusion => exact .inclusion inclusion
  | declared head members => exact stated.2

theorem access_inNamespace (r : Reading) (s : Surroundings) (n : Node) : (inNamespace r s n).access = s.access := by
  unfold inNamespace
  split <;> rfl

/-- A declaration without members has the access around it. -/
theorem stated_declare {kind : Kind} {name : String} {enclosing : List String} {location : Location}
    {annotations : List String} {templateParams : List TemplateParam} {detail : Detail}
    (declares : Declares r n (s.declare kind name enclosing location annotations templateParams detail)) :
    Stated r root s.access [n]
      (.declared (s.declare kind name enclosing location annotations templateParams detail) []) :=
  ⟨.own (stands_only r s.access n) declares, .declared (by simp) (by simp)⟩

theorem stated_enumeration {core outer : Place} (here : Specifies n core.node)
    (construct : core.node.construct = .enumeration) (member : entry ∈ enumeration r s core outer) :
    Stated r root s.access [n] entry := by
  obtain ⟨name, _, _, named, rfl⟩ := mem_enumeration member
  exact stated_declare (.enumeration here construct named rfl rfl rfl)

theorem stated_function {core : Place} {declarator : Node} {template : Option TemplateHeader} {isDefinition : Bool}
    (part : declarator ∈ core.node.childrenAt "declarator")
    (member : entry ∈ function r s core declarator template isDefinition) :
    Stated r root s.access [core.node] entry := by
  obtain ⟨_, _, name, _, last, _, _, _, _, found, named, split, callable, rfl⟩ := mem_function member
  have lastName : last = (QualifiedName.split (r.squashed name)).2 := by rw [split]
  exact stated_declare (.function part found named callable lastName rfl)

theorem stated_declarators {core : Place} {template : Option TemplateHeader}
    (member : entry ∈ declarators r s core template) : Stated r root s.access [core.node] entry := by
  obtain ⟨declarator, part, made⟩ := mem_declarators member
  rcases made with callable | data
  · exact stated_function part callable
  · obtain ⟨name, _, _, named, rfl⟩ := mem_field data
    exact stated_declare (.field part rfl named rfl)

structure StatedBelow (r : Reading) (root : Node) (size : Nat) : Prop where
  items : ∀ s before nodes, sizeOf nodes < size → (∀ n ∈ nodes, root.Within n) →
    States r root s.access (Node.spreadAll nodes) (items r s before nodes)
  visit : ∀ s template p, sizeOf p.node < size → root.Within p.node →
    States r root s.access p.node.spread (visit r s template p)

variable {size : Nat}

theorem StatedBelow.items_next (below : StatedBelow r root size) {before nodes : List Node}
    (bound : sizeOf nodes < size + 1) (within : ∀ n ∈ nodes, root.Within n) :
    States r root s.access (Node.spreadAll nodes) (Outline.items r s before nodes) := by
  cases nodes with
  | nil =>
    rw [Outline.items, Node.spreadAll]
    exact ⟨rfl, by simp⟩
  | cons n rest =>
    rw [List.cons.sizeOf_spec] at bound
    obtain ⟨here, later⟩ := List.forall_mem_cons.mp within
    have first := below.visit s none ⟨n, before⟩ (by dsimp only; omega) here
    have others := below.items { s with access := (Outline.visit r s none ⟨n, before⟩).2 } (n :: before) rest
      (by omega) later
    rw [Outline.items, Node.spreadAll]
    dsimp only at first others ⊢
    rw [first.access] at others ⊢
    refine ⟨others.access.trans (accessAfter_append _ _ _ _).symm, fun entry member => ?_⟩
    rcases List.mem_append.mp member with front | behind
    · exact (first.entries entry front).imp fun _ _ recorded => recorded.within [] (Node.spreadAll rest)
    · have moved := (others.entries entry behind).imp fun _ _ recorded => recorded.within n.spread []
      simpa using moved

theorem StatedBelow.record_next (below : StatedBelow r root size) {tag : RecordTag} {template : Option TemplateHeader}
    {core outer : Place} (bound : sizeOf core.node < size + 1) (within : root.Within core.node)
    (here : Specifies n core.node) (construct : core.node.construct = .record tag)
    (member : entry ∈ Outline.record r s tag template core outer) : Stated r root s.access [n] entry := by
  obtain ⟨body, found, made⟩ := mem_record member
  have smaller := sizeOf_body_lt found
  have inside := within_children (within_child? within found)
  have body? := child?_eq_some found
  rcases made with ⟨unnamed, listed⟩ | ⟨name, enclosing, last, _, _, _, named, split, rfl⟩
  · have states := below.items { s with access := tag.defaultAccess } [] _ (by omega) inside
    exact (states.entries entry listed).imp fun _ _ inner =>
      .unnamed (stands_only r s.access n) ⟨here, construct, unnamed, body?⟩ inner
  · have lastName : last = (QualifiedName.split (r.squashed name)).2 := by rw [split]
    have states := below.items (s.inRecord enclosing last tag) [] _ (by omega) inside
    refine ⟨.own (stands_only r s.access n) (.record here construct named rfl lastName rfl), .declared ?_ ?_⟩
    · intro inner more listed
      refine ⟨core.node, tag, body.node, within, ⟨construct, rfl, ⟨name, named, lastName⟩, rfl, body?⟩, ?_⟩
      exact (states.entries _ listed).1.alike rfl rfl rfl
    · exact fun inner listed => (states.entries inner listed).nested

/-- A node that stands for itself and is no access specifier. -/
theorem states_single {c : Construct} {entries : List Entry} (construct : n.construct = c)
    (alone : c ∉ [.conditional, .linkage, .template]) (silent : c ≠ .accessSpecifier)
    (stated : ∀ entry ∈ entries, Stated r root start [n] entry) :
    States r root start n.spread (entries, start) := by
  rw [spread_single construct alone]
  exact ⟨(accessAfter_plain (construct ▸ silent)).symm, stated⟩

theorem StatedBelow.visit_next (below : StatedBelow r root size) {template : Option TemplateHeader} {p : Place}
    (bound : sizeOf p.node < size + 1) (within : root.Within p.node) :
    States r root s.access p.node.spread (Outline.visit r s template p) := by
  have children := Node.sizeOf_children_lt p.node
  have nothing : States r root s.access [] (([] : List Entry), s.access) := ⟨rfl, by simp⟩
  rw [Outline.visit]
  -- One case for each construct, in the order of the definition.
  split
  next construct =>
    split
    next => exact states_single construct (by simp) (by simp) (by simp)
    next body found =>
      have smaller := sizeOf_body_lt found
      have states := below.items (inNamespace r s p.node) [] _ (by omega) (within_children (within_child? within found))
      refine states_single construct (by simp) (by simp) fun entry member => ?_
      rw [← access_inNamespace r s p.node]
      exact (states.entries entry member).imp fun _ _ recorded => recorded.block construct (child?_eq_some found)
  next construct =>
    rw [spread_linkage construct]
    split
    next found =>
      rw [found]
      exact nothing
    next body found =>
      have smaller := sizeOf_body_lt found
      have smallerBody := Place.sizeOf_lt_of_child? found
      have inside := within_child? within found
      rw [found]
      dsimp only
      split
      · exact below.items s [] _ (by omega) (within_children inside)
      · exact below.visit s none body (by omega) inside
  next construct =>
    rw [spread_template construct]
    split
    next found =>
      rw [found]
      exact nothing
    next inner found =>
      have smaller := sizeOf_lt_of_templated? found
      rw [found]
      exact below.visit s _ inner (by omega) (within_child within (List.mem_of_find?_eq_some found))
  next tag construct =>
    refine states_single construct (by simp) (by simp) ?_
    exact fun entry member => below.record_next bound within (.inl rfl) construct member
  next construct =>
    refine states_single construct (by simp) (by simp) ?_
    exact fun entry member => stated_enumeration (.inl rfl) construct member
  next construct =>
    refine states_single construct (by simp) (by simp) ?_
    intro entry member
    rcases List.mem_append.mp member with specified | declared
    · split at specified
      · cases specified
      next type found =>
        have smaller := Place.sizeOf_lt_of_child? found
        have here : Specifies p.node type.node := .inr ⟨construct, child?_eq_some found⟩
        split at specified
        next tag record => exact below.record_next (by omega) (within_child? within found) here record specified
        next enumeration => exact stated_enumeration here enumeration specified
        next => cases specified
    · exact stated_declarators declared
  next construct =>
    split
    next => exact states_single construct (by simp) (by simp) (by simp)
    next declarator found =>
      have listed : declarator ∈ p.node.children := List.mem_of_find?_eq_some found
      have named := List.find?_some (p := fun c : Node => c.field == "declarator") found
      refine states_single construct (by simp) (by simp) ?_
      exact fun entry member => stated_function (List.mem_filter.mpr ⟨listed, named⟩) member
  next construct =>
    rw [spread_single construct (by simp)]
    exact ⟨by simp [accessAfter, construct], by simp⟩
  next construct =>
    rw [spread_conditional construct]
    exact below.items s [] _ (by omega) (within_children within)
  next construct =>
    refine states_single construct (by simp) (by simp) ?_
    intro entry member
    obtain ⟨inclusion, _, rfl⟩ := List.mem_map.mp member
    trivial
  next construct =>
    exact states_single construct (by simp) (by simp) (by simp)

variable (r root) in
theorem statedBelow (size : Nat) : StatedBelow r root size := by
  induction size with
  | zero => exact ⟨fun _ _ _ none => absurd none (Nat.not_lt_zero _), fun _ _ _ none => absurd none (Nat.not_lt_zero _)⟩
  | succ size below =>
    exact ⟨fun _ _ _ bound within => below.items_next bound within, fun _ _ _ bound within => below.visit_next bound within⟩

theorem states_outline (r : Reading) (root : Node) :
    States r root .publicMember (Node.spreadAll root.children) (items r .global [] root.children) :=
  (statedBelow r root _).items .global [] root.children (Nat.lt_succ_self _) (within_children .root)

end

end Outline

namespace SourceUnit

open Outline

/-- The parent of a declaration is a record before it. The declaration has the access in force where it stands in
the body of the record, or it stands in an unnamed record there and has the access in force in the body of that one,
whatever the access around it. -/
theorem access_of_member (r : Reading) (present : Path → Bool) (root : Node) {id above : Nat} {d : Declaration}
    (member : (ofTree r present root).decls[id]? = some d) (below : d.parent = some above) :
    ∃ owner n tag body leaf a, above < id ∧ (ofTree r present root).decls[above]? = some owner ∧
      root.Within n ∧ Opens r n tag body owner ∧
      Stands r tag.defaultAccess (Node.spreadAll body.children) leaf a ∧
      (Declares r leaf d ∧ d.access = a ∨
        ∃ inner block, Unnamed leaf inner block ∧
          Recorded r inner.defaultAccess (Node.spreadAll block.children) d d.access) := by
  have linked : Linked (MemberOf r root) (ofTree r present root) :=
    linked_ofTree fun entry listed => ((states_outline r root).entries entry listed).nested
  obtain ⟨earlier, owner, record, n, tag, body, within, opens, recorded⟩ := linked id d above member below
  have opened : Opens r n tag body owner := ⟨opens.construct, opens.kind, opens.named, opens.location, opens.found⟩
  have stated : Recorded r tag.defaultAccess (Node.spreadAll body.children) d d.access := recorded.alike rfl rfl rfl
  refine ⟨owner, n, tag, body, ?_⟩
  generalize d.access = b at stated ⊢
  cases stated with
  | own stands declares => exact ⟨_, _, earlier, record, within, opened, stands, .inl ⟨declares, rfl⟩⟩
  | unnamed stands unnamed inner =>
    exact ⟨_, _, earlier, record, within, opened, stands, .inr ⟨_, _, unnamed, inner⟩⟩

/-- A class with a member in an unnamed union and one behind it. -/
def unionInClass : Reading := ⟨"class P \x7b union \x7b int x; \x7d; int y; \x7d;", ⟨"p.hpp"⟩, [], true⟩

def node (id : Nat) (kind field : String) (start stop : Nat) (children : List Node) : Node :=
  .mk ⟨id, kind, field, start, stop, true, false, false, false⟩ children

def token (id : Nat) (kind : String) (start : Nat) : Node :=
  .mk ⟨id, kind, "", start, start + kind.length, false, false, false, false⟩ []

def unionBody : Node :=
  node 9 "field_declaration_list" "body" 16 26 [token 10 "\x7b" 16,
    node 11 "field_declaration" "" 18 24 [node 12 "primitive_type" "type" 18 21 [],
      node 13 "field_identifier" "declarator" 22 23 [], token 14 ";" 23], token 15 "\x7d" 25]

def unionMember : Node :=
  node 6 "field_declaration" "" 10 27 [
    node 7 "union_specifier" "type" 10 26 [token 8 "union" 10, unionBody], token 16 ";" 26]

def unionInClassBody : Node :=
  node 4 "field_declaration_list" "body" 8 36 [token 5 "\x7b" 8, unionMember,
    node 17 "field_declaration" "" 28 34 [node 18 "primitive_type" "type" 28 31 [],
      node 19 "field_identifier" "declarator" 32 33 [], token 20 ";" 33], token 21 "\x7d" 35]

def unionInClassTree : Node :=
  node 0 "translation_unit" "" 0 37 [
    node 1 "class_specifier" "" 0 36 [token 2 "class" 0, node 3 "type_identifier" "name" 6 7 [], unionInClassBody],
    token 22 ";" 36]

def declaredField (name : String) (column : Nat) (access : Access) : Declaration where
  kind := .field
  name
  qualifiedName := "P::" ++ name
  namespaces := []
  enclosingRecords := ["P"]
  location := ⟨⟨"p.hpp"⟩, 1, column⟩
  annotations := []
  templateParams := []
  access
  parent := some 0
  children := []
  detail := .field ⟨"int", false⟩

def declaredClass : Declaration where
  kind := .classType
  name := "P"
  qualifiedName := "P"
  namespaces := []
  enclosingRecords := []
  location := ⟨⟨"p.hpp"⟩, 1, 1⟩
  annotations := []
  templateParams := []
  access := .publicMember
  parent := none
  children := [1, 2]
  detail := .record ⟨.classTag, []⟩

theorem access_of_member_union :
    (ofTree unionInClass (fun _ => false) unionInClassTree).decls[1]? = some (declaredField "x" 23 .publicMember) ∧
      ∃ owner n tag body leaf a, 0 < 1 ∧
        (ofTree unionInClass (fun _ => false) unionInClassTree).decls[0]? = some owner ∧
        unionInClassTree.Within n ∧ Opens unionInClass n tag body owner ∧
        Stands unionInClass tag.defaultAccess (Node.spreadAll body.children) leaf a ∧
        (Declares unionInClass leaf (declaredField "x" 23 .publicMember) ∧ .publicMember = a ∨
          ∃ inner block, Unnamed leaf inner block ∧ Recorded unionInClass inner.defaultAccess
            (Node.spreadAll block.children) (declaredField "x" 23 .publicMember) .publicMember) := by
  have member : (ofTree unionInClass (fun _ => false) unionInClassTree).decls[1]? =
      some (declaredField "x" 23 .publicMember) := by
    decide +kernel
  exact ⟨member, access_of_member unionInClass _ unionInClassTree member rfl⟩

/-- In the body of the class the union stands where members are private, and its member is recorded as public. -/
theorem union_member_public :
    (ofTree unionInClass (fun _ => false) unionInClassTree).decls =
        #[declaredClass, declaredField "x" 23 .publicMember, declaredField "y" 33 .privateMember] ∧
      Opens unionInClass (unionInClassTree.children.headD unionInClassTree) .classTag unionInClassBody declaredClass ∧
      Stands unionInClass RecordTag.classTag.defaultAccess (Node.spreadAll unionInClassBody.children) unionMember
        .privateMember ∧
      Unnamed unionMember .unionTag unionBody ∧ ¬ Access.privateMember.level ≤ Access.publicMember.level := by
  refine ⟨by decide +kernel, ?_, ?_, ?_, by decide⟩
  · exact ⟨by decide +kernel, by decide +kernel, ⟨_, rfl, by decide +kernel⟩, by decide +kernel, rfl⟩
  · have body : unionInClassBody.children = token 5 "\x7b" 8 :: unionMember :: unionInClassBody.children.drop 2 := rfl
    have brace : (token 5 "\x7b" 8).construct = .other := by decide +kernel
    have field : unionMember.construct = .declaration := by decide +kernel
    have split : Node.spreadAll unionInClassBody.children =
        [token 5 "\x7b" 8] ++ unionMember :: Node.spreadAll (unionInClassBody.children.drop 2) := by
      rw [body, Node.spreadAll, Node.spreadAll, spread_single brace (by simp), spread_single field (by simp)]
      rfl
    exact .here split
  · exact .intro (.inr ⟨by decide +kernel, rfl⟩) (by decide +kernel) rfl rfl

end SourceUnit

end MarkerGen
