import MarkerGen.Declaration

/-! The declaration kinds that a capability applies to. -/
namespace MarkerGen

/-- A set of kinds, listed in the order of `Kind.all`. -/
structure KindSet where
  members : List Kind
  ordered : members = Kind.all.filter (members.contains ·)
  deriving DecidableEq

namespace KindSet

def ofPredicate (p : Kind → Bool) : KindSet where
  members := Kind.all.filter p
  ordered := by
    apply List.filter_congr
    intro kind inside
    simp [List.contains_eq_mem, List.mem_filter, inside]

def ofList (kinds : List Kind) : KindSet := ofPredicate (kinds.contains ·)

@[simp] theorem contains_ofPredicate (p : Kind → Bool) (kind : Kind) :
    (ofPredicate p).members.contains kind = p kind := by
  simp [ofPredicate, List.contains_eq_mem, List.mem_filter, Kind.mem_all]

end KindSet

inductive Scope where
  | any
  | only (kinds : KindSet)
  deriving DecidableEq

namespace Scope

def ofList (kinds : List Kind) : Scope := .only (.ofList kinds)

def contains : Scope → Kind → Bool
  | .any, _ => true
  | .only kinds, kind => kinds.members.contains kind

def isEmpty : Scope → Bool
  | .any => false
  | .only kinds => kinds.members.isEmpty

def intersection : Scope → Scope → Scope
  | .any, .any => .any
  | a, b => .only (.ofPredicate fun kind => a.contains kind && b.contains kind)

def overlaps (a b : Scope) : Bool := !(a.intersection b).isEmpty

def difference (a b : Scope) : Scope :=
  .only (.ofPredicate fun kind => a.contains kind && !b.contains kind)

def text : Scope → String
  | .any => "any"
  | .only kinds => Text.join "|" (kinds.members.map Kind.name)

@[simp] theorem contains_intersection (a b : Scope) (kind : Kind) :
    (a.intersection b).contains kind = (a.contains kind && b.contains kind) := by
  cases a <;> cases b <;>
    simp only [intersection, contains, KindSet.contains_ofPredicate, Bool.true_and, Bool.and_true]

@[simp] theorem contains_difference (a b : Scope) (kind : Kind) :
    (a.difference b).contains kind = (a.contains kind && !b.contains kind) := by
  simp only [difference, contains, KindSet.contains_ofPredicate]

end Scope

end MarkerGen
