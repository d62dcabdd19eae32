/-! Concrete trees of source files. A node covers a range of bytes, may have a field name in
its parent, and is told apart from all others by its number in pre-order. -/
namespace MarkerGen

/-- What the parser tells of a node. Whether it has an error is about the node and all that the
parser made of its text, be it shown in the tree or not. -/
structure NodeInfo where
  id : Nat
  kind : String
  field : String
  start : Nat
  stop : Nat
  isNamed : Bool
  isError : Bool
  isMissing : Bool
  hasError : Bool
  deriving DecidableEq, Repr

inductive Node where
  | mk (info : NodeInfo) (children : List Node)

namespace Node

def info : Node → NodeInfo
  | .mk info _ => info

def children : Node → List Node
  | .mk _ children => children

def id (n : Node) : Nat := n.info.id
def kind (n : Node) : String := n.info.kind
def field (n : Node) : String := n.info.field
def start (n : Node) : Nat := n.info.start
def stop (n : Node) : Nat := n.info.stop
def isNamed (n : Node) : Bool := n.info.isNamed
def hasError (n : Node) : Bool := n.info.hasError

def child? (n : Node) (field : String) : Option Node := n.children.find? (·.field == field)

def childrenAt (n : Node) (field : String) : List Node := n.children.filter (·.field == field)

/-- A node at which the parser gave up or supplied a token. -/
def isFault (n : Node) : Bool := n.info.isMissing || n.info.isError

theorem sizeOf_lt_of_mem_children {n c : Node} (inside : c ∈ n.children) : sizeOf c < sizeOf n := by
  cases n with
  | mk info children =>
    have := List.sizeOf_lt_of_mem inside
    simp only [Node.children, mk.sizeOf_spec] at *
    omega

theorem sizeOf_children_lt (n : Node) : sizeOf n.children < sizeOf n := by
  cases n with
  | mk info children => simp only [Node.children, mk.sizeOf_spec]; omega

theorem sizeOf_append (front back : List Node) : sizeOf (front ++ back) + 1 = sizeOf front + sizeOf back := by
  induction front with
  | nil => simp; omega
  | cons n rest ih => simp only [List.cons_append, List.cons.sizeOf_spec]; omega

theorem sizeOf_lt_of_child? {n c : Node} {field : String} (found : n.child? field = some c) :
    sizeOf c < sizeOf n :=
  sizeOf_lt_of_mem_children (List.mem_of_find?_eq_some found)

/-- The first `room` topmost faults of pending trees. A tree without an error is passed over as a
whole; the children of any other node come next. -/
def firstFaults : (room : Nat) → (pending : List Node) → List Node
  | 0, _ => []
  | _ + 1, [] => []
  | room + 1, n :: pending =>
    if n.isFault then n :: firstFaults room pending
    else if n.hasError then firstFaults (room + 1) (n.children ++ pending)
    else firstFaults (room + 1) pending
termination_by _ pending => sizeOf pending
decreasing_by
  · rw [List.cons.sizeOf_spec]; omega
  · have := sizeOf_append n.children pending
    have := n.sizeOf_children_lt
    rw [List.cons.sizeOf_spec]; omega
  · rw [List.cons.sizeOf_spec]; omega

mutual
def hasKind (kind : String) : Node → Bool
  | .mk info children => info.kind == kind || anyHasKind kind children
def anyHasKind (kind : String) : List Node → Bool
  | [] => false
  | n :: rest => n.hasKind kind || anyHasKind kind rest
end

/-- A node over its children. It has an error if it is listed with one, if it is a fault, or if
a child has one. -/
def spanning (info : NodeInfo) (children : List Node) : Node :=
  .mk { info with hasError := info.hasError || isFault (.mk info children) || children.any hasError } children

def attach (entry : Nat × NodeInfo) (following : List (Nat × Node)) : List (Nat × Node) :=
  let deeper := following.takeWhile (entry.1 < ·.1)
  let others := following.dropWhile (entry.1 < ·.1)
  (entry.1, spanning entry.2 (deeper.map (·.2))) :: others

/-- The tree listed in pre-order by depth and node. -/
def ofPreorder? (entries : List (Nat × NodeInfo)) : Option Node :=
  (entries.foldr attach []).head?.map (·.2)

end Node

end MarkerGen
