import Mathlib.Data.List.Range
import MarkerGen.SourceUnit

/-! Units that are made by appending declarations. Where each declaration comes without children,
the children of a declaration are the later ones that name it as their parent, in order. -/
namespace MarkerGen.SourceUnit

/-- A unit to which only declarations without children were appended. -/
inductive Pushed : SourceUnit → Prop
  | empty (path : Path) (includePaths : List Path) : Pushed (.empty path includePaths)
  | push {u : SourceUnit} (decl : Declaration) (earlier : Pushed u) (childless : decl.children = []) :
      Pushed (u.push decl)
  | report {u : SourceUnit} (diagnostic : Diagnostic) (earlier : Pushed u) : Pushed (u.report diagnostic)

def parentAt (u : SourceUnit) (id : Nat) : Option Nat := u.decls[id]?.bind (·.parent)

/-- The declarations after a position that name it as their parent. -/
def adopted (u : SourceUnit) (id : Nat) : List Nat :=
  (List.range u.size).filter fun child => decide (id < child) && u.parentAt child == some id

@[simp] theorem size_push (u : SourceUnit) (decl : Declaration) : (u.push decl).size = u.size + 1 := by
  unfold push size
  cases decl.parent <;> simp

theorem getElem?_push (u : SourceUnit) (decl : Declaration) (id : Nat) :
    (u.push decl).decls[id]? = if id = u.size then some decl else u.decls[id]?.map fun d =>
      if decl.parent = some id then { d with children := d.children ++ [u.size] } else d := by
  unfold push size
  cases decl.parent with
  | none =>
    rw [Array.getElem?_push]
    simp
  | some parent =>
    rw [Array.getElem?_push, Array.size_modify, Array.getElem?_modify]
    by_cases last : id = u.decls.size
    · simp [last]
    · by_cases same : parent = id <;> simp [last, same]

theorem parentAt_push (u : SourceUnit) (decl : Declaration) (id : Nat) :
    (u.push decl).parentAt id = if id = u.size then decl.parent else u.parentAt id := by
  rw [parentAt, getElem?_push]
  split
  · rfl
  · rw [parentAt, Option.bind_map]
    congr 1
    funext d
    simp only [Function.comp_apply]
    split <;> rfl

theorem adopted_push (u : SourceUnit) (decl : Declaration) (id : Nat) (earlier : id < u.size) :
    (u.push decl).adopted id = u.adopted id ++ if decl.parent = some id then [u.size] else [] := by
  have old : (List.range u.size).filter (fun child => decide (id < child) && (u.push decl).parentAt child == some id) =
      u.adopted id := by
    apply List.filter_congr
    intro child inside
    rw [parentAt_push, if_neg (Nat.ne_of_lt (List.mem_range.mp inside))]
  rw [adopted, size_push, List.range_succ, List.filter_append, old, List.filter_singleton, parentAt_push, if_pos rfl]
  simp [earlier]

theorem Pushed.children_eq {u : SourceUnit} (pushed : Pushed u) {id : Nat} {d : Declaration}
    (found : u.decls[id]? = some d) : d.children = u.adopted id := by
  induction pushed generalizing id d with
  | empty path includePaths => simp [SourceUnit.empty] at found
  | report diagnostic _ ih => exact ih found
  | @push u decl _ childless ih =>
    rw [getElem?_push] at found
    split at found
    next last =>
      cases found
      rw [childless, adopted, eq_comm, List.filter_eq_nil_iff]
      intro child inside
      have bound : child < u.size + 1 := by simpa using inside
      have notLater : ¬ id < child := by omega
      simp [notLater]
    next =>
      obtain ⟨old, present, rfl⟩ := Option.map_eq_some_iff.mp found
      rw [adopted_push u decl id (Array.getElem?_eq_some_iff.mp present).1, ← ih present]
      split <;> simp

theorem Pushed.child_lt {u : SourceUnit} (pushed : Pushed u) {d : Declaration} (inside : d ∈ u.decls) {id : Nat}
    (child : id ∈ d.children) : id < u.size := by
  obtain ⟨position, found⟩ := Array.mem_iff_getElem?.mp inside
  rw [pushed.children_eq found] at child
  exact List.mem_range.mp (List.mem_filter.mp child).1

theorem mem_entries {u : SourceUnit} {declared : Declared} (inside : declared ∈ u.entries) :
    u.decls[declared.id]? = some declared.decl := by
  obtain ⟨⟨decl, id⟩, numbered, rfl⟩ := List.mem_map.mp inside
  simpa using List.mem_zipIdx_iff_getElem?.mp numbered

theorem entries_increasing (u : SourceUnit) : u.entries.Pairwise (·.id < ·.id) := by
  have positions : u.entries.map Declared.id = List.range' 0 u.decls.toList.length := by
    simp [entries, Function.comp_def, List.zipIdx_map_snd]
  rw [← List.pairwise_map (R := (· < ·)), positions]
  exact List.pairwise_lt_range'

theorem entries_distinct (u : SourceUnit) : u.entries.Nodup :=
  u.entries_increasing.imp fun {a b} (less : a.id < b.id) same => Nat.ne_of_lt less (congrArg Declared.id same)

end MarkerGen.SourceUnit
