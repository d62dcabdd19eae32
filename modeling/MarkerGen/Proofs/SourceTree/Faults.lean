import Mathlib.Data.List.Forall2
import MarkerGen.Proofs.SourceTree.Names
import MarkerGen.SourceTree.Parse

/-! The faults that a failed reading complains about. Looking through a tree with a list of pending trees,
without entering those that have no error, finds the same faults as listing all nodes in document order,
provided that the parser passes errors on from a node to the nodes around it. -/
namespace MarkerGen
namespace Node

/-- A node of a tree with the nodes around it, innermost first. -/
structure Site where
  node : Node
  around : List Node

/-- A fault that is in no other fault. -/
def Site.isTopmost (s : Site) : Bool := s.node.isFault && !s.around.any isFault

mutual
/-- The nodes of a tree in document order, with what is around the tree. -/
def sites (around : List Node) : Node → List Site
  | .mk info children => ⟨.mk info children, around⟩ :: sitesOf (.mk info children :: around) children
def sitesOf (around : List Node) : List Node → List Site
  | [] => []
  | n :: rest => n.sites around ++ sitesOf around rest
end

def topmostIn (around nodes : List Node) : List Node := ((sitesOf around nodes).filter (·.isTopmost)).map (·.node)

/-- The topmost faults of trees, in document order. -/
def topmost (nodes : List Node) : List Node := topmostIn [] nodes

section
variable {n : Node}

theorem sitesOf_append (around front back : List Node) :
    sitesOf around (front ++ back) = sitesOf around front ++ sitesOf around back := by
  induction front with
  | nil => rfl
  | cons n rest ih => rw [List.cons_append, sitesOf, sitesOf, ih, List.append_assoc]

theorem topmostIn_append (around front back : List Node) :
    topmostIn around (front ++ back) = topmostIn around front ++ topmostIn around back := by
  simp only [topmostIn, sitesOf_append, List.filter_append, List.map_append]

theorem topmostIn_cons (around : List Node) (n : Node) (rest : List Node) :
    topmostIn around (n :: rest) =
      (if Site.isTopmost ⟨n, around⟩ then [n] else []) ++
        topmostIn (n :: around) n.children ++ topmostIn around rest := by
  have sites : n.sites around = ⟨n, around⟩ :: sitesOf (n :: around) n.children := by
    cases n
    rfl
  rw [topmostIn, sitesOf, sites, List.cons_append, List.filter_cons, List.filter_append]
  split <;> simp [topmostIn]

/-- Inside of a fault there is no topmost one; elsewhere it does not matter what is around. -/
theorem topmostIn_eq (around nodes : List Node) :
    topmostIn around nodes = if around.any isFault then [] else topmost nodes := by
  cases nodes with
  | nil => cases around.any isFault <;> rfl
  | cons n rest =>
    have inner := topmostIn_eq (n :: around) n.children
    have alone := topmostIn_eq [n] n.children
    have later := topmostIn_eq around rest
    rw [topmost, topmostIn_cons, topmostIn_cons, inner, alone, later, ← topmost]
    simp only [Site.isTopmost, List.any_cons, List.any_nil, Bool.or_false, Bool.not_false, Bool.and_true]
    rcases Bool.eq_false_or_eq_true (around.any isFault) with under | free
    · simp only [under]
      simp
    · simp only [free]
      cases n.isFault <;> simp
termination_by sizeOf nodes
decreasing_by
  all_goals
    have := n.sizeOf_children_lt
    rw [List.cons.sizeOf_spec]
    omega

theorem topmost_append (front back : List Node) : topmost (front ++ back) = topmost front ++ topmost back :=
  topmostIn_append [] front back

theorem topmost_cons (n : Node) (rest : List Node) : topmost (n :: rest) = topmost [n] ++ topmost rest :=
  topmost_append [n] rest

theorem topmost_fault (fault : n.isFault = true) (rest : List Node) : topmost (n :: rest) = n :: topmost rest := by
  rw [topmost, topmostIn_cons, topmostIn_eq]
  simp [Site.isTopmost, fault, topmost]

theorem topmost_inner (sound : n.isFault = false) (rest : List Node) :
    topmost (n :: rest) = topmost (n.children ++ rest) := by
  rw [topmost_append, topmost, topmostIn_cons, topmostIn_eq]
  simp [Site.isTopmost, sound, topmost]

end

section
variable {root n : Node}

theorem Within.trans {inner : Node} (above : root.Within n) (below : n.Within inner) : root.Within inner := by
  induction below with
  | root => exact above
  | child _ inside ih => exact .child ih inside

theorem within_iff {inner : Node} : n.Within inner ↔ inner = n ∨ ∃ c ∈ n.children, c.Within inner := by
  constructor
  · intro within
    induction within with
    | root => exact .inl rfl
    | @child above c _ inside ih =>
      rcases ih with rfl | ⟨top, first, below⟩
      · exact .inr ⟨c, inside, .root⟩
      · exact .inr ⟨top, first, .child below inside⟩
  · rintro (rfl | ⟨c, inside, below⟩)
    · exact .root
    · exact (Within.child .root inside).trans below

theorem forall_within_iff {P : Node → Prop} :
    (∀ inner, n.Within inner → P inner) ↔ P n ∧ ∀ c ∈ n.children, ∀ inner, c.Within inner → P inner := by
  constructor
  · exact fun all => ⟨all n .root, fun c inside inner below => all inner ((Within.child .root inside).trans below)⟩
  · rintro ⟨own, others⟩ inner within
    rcases within_iff.mp within with rfl | ⟨c, inside, below⟩
    · exact own
    · exact others c inside inner below

/-- A tree without faults. -/
def Sound (root : Node) : Prop := ∀ n, root.Within n → n.isFault = false

theorem topmost_eq_nil_iff (nodes : List Node) : topmost nodes = [] ↔ ∀ n ∈ nodes, n.Sound := by
  cases nodes with
  | nil => simp [topmost, topmostIn, sitesOf]
  | cons n rest =>
    have inner := topmost_eq_nil_iff n.children
    have later := topmost_eq_nil_iff rest
    rw [List.forall_mem_cons, Sound, forall_within_iff]
    cases fault : n.isFault with
    | true => simp [topmost_fault fault]
    | false =>
      rw [topmost_inner fault, topmost_append, List.append_eq_nil_iff, inner, later, and_iff_right rfl]
      rfl
termination_by sizeOf nodes
decreasing_by
  all_goals
    have := n.sizeOf_children_lt
    rw [List.cons.sizeOf_spec]
    omega

/-- A parser passes an error on to the nodes around it. -/
def PassesOn (root : Node) : Prop :=
  ∀ n, root.Within n → n.isFault = true ∨ (∃ c ∈ n.children, c.hasError = true) → n.hasError = true

/-- It has no error from elsewhere than from the faults that its tree shows. -/
def Shows (root : Node) : Prop :=
  ∀ n, root.Within n → n.hasError = true → n.isFault = true ∨ ∃ c ∈ n.children, c.hasError = true

theorem PassesOn.child {c : Node} (passes : n.PassesOn) (inside : c ∈ n.children) : c.PassesOn :=
  (forall_within_iff.mp passes).2 c inside

theorem PassesOn.sound {n : Node} (passes : n.PassesOn) (free : n.hasError = false) : n.Sound := by
  have none := mt (passes n .root) (Bool.eq_false_iff.mp free)
  rw [not_or] at none
  refine forall_within_iff.mpr ⟨Bool.eq_false_iff.mpr none.1, fun c inside => ?_⟩
  exact (passes.child inside).sound (Bool.eq_false_iff.mpr fun error => none.2 ⟨c, inside, error⟩)
termination_by sizeOf n
decreasing_by exact sizeOf_lt_of_mem_children inside

theorem hasError_spanning (info : NodeInfo) (children : List Node) :
    (spanning info children).hasError = (info.hasError || (spanning info children).isFault || children.any hasError) := rfl

theorem PassesOn.spanning {info : NodeInfo} {children : List Node} (below : ∀ c ∈ children, c.PassesOn) :
    (spanning info children).PassesOn := by
  refine forall_within_iff.mpr ⟨?_, below⟩
  rintro (fault | ⟨c, inside, error⟩)
  · simp [hasError_spanning, fault]
  · have some : children.any hasError = true := List.any_eq_true.mpr ⟨c, inside, error⟩
    simp [hasError_spanning, some]

theorem Shows.spanning {info : NodeInfo} {children : List Node} (plain : info.hasError = false)
    (below : ∀ c ∈ children, c.Shows) : (spanning info children).Shows := by
  refine forall_within_iff.mpr ⟨fun error => ?_, below⟩
  rw [hasError_spanning, plain, Bool.false_or, Bool.or_eq_true, List.any_eq_true] at error
  exact error

/-- Looking through pending trees gives their topmost faults as far as there is room. -/
theorem firstFaults_eq_take (room : Nat) {pending : List Node} (passes : ∀ n ∈ pending, n.PassesOn) :
    firstFaults room pending = (topmost pending).take room := by
  fun_induction firstFaults room pending with
  | case1 => rfl
  | case2 => rfl
  | case3 room n pending fault ih =>
    rw [topmost_fault fault, List.take_succ_cons, ih fun c later => passes c (List.mem_cons_of_mem _ later)]
  | case4 room n pending sound _ ih =>
    rw [topmost_inner (by simpa using sound), ih]
    intro c member
    rcases List.mem_append.mp member with inside | later
    · exact (passes n List.mem_cons_self).child inside
    · exact passes c (List.mem_cons_of_mem _ later)
  | case5 room n pending _ free ih =>
    obtain ⟨own, others⟩ := List.forall_mem_cons.mp passes
    have none : topmost [n] = [] := (topmost_eq_nil_iff [n]).mpr (by simpa using own.sound (by simpa using free))
    rw [ih others, topmost_cons, none, List.nil_append]

end

end Node

namespace Frontend

variable {f : Frontend} {text : String}

/-- A reading fails exactly if the parser tells of an error, and complains of what its tree shows. -/
theorem parseText_eq (passes : (f.grammar text).PassesOn) (fs : FileStore) (path : Path) :
    let r : Reading := ⟨text, path, f.includePaths, f.commentMarkers⟩
    f.parseText fs path text = if (f.grammar text).hasError then
        .error ⟨path, ((Node.topmost [f.grammar text]).take maxFaults).map r.faultDiagnostic⟩
      else .ok (.ofTree r fs.present (f.grammar text)) := by
  intro r
  rw [← Node.firstFaults_eq_take maxFaults (by simpa using passes)]
  rfl

/-- An error that the tree does not show fails the reading without a complaint. -/
theorem parseText_unshown (passes : (f.grammar text).PassesOn) (sound : (f.grammar text).Sound)
    (error : (f.grammar text).hasError = true) (fs : FileStore) (path : Path) :
    f.parseText fs path text = .error ⟨path, []⟩ := by
  have none : Node.topmost [f.grammar text] = [] := (Node.topmost_eq_nil_iff _).mpr (by simpa using sound)
  rw [parseText_eq passes, if_pos error, none]
  rfl

end Frontend

end MarkerGen
