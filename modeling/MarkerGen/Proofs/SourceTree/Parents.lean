import MarkerGen.Proofs.SourceUnit.Children
import MarkerGen.SourceTree.Outline

/-! Parents in the unit of a source tree are the declarations around the members in its outline: what
holds between each declaration of the outline and its direct members holds between each parent and its
children in the unit, and what holds of each declaration of the outline holds of each in the unit. -/
namespace MarkerGen

/-- A declaration without its place in a unit. -/
def Declaration.bare (d : Declaration) : Declaration := { d with parent := none, children := [] }

/-- A relation that holds between each declaration and its direct members. -/
inductive Entry.Nested (R : Declaration → Declaration → Prop) : Entry → Prop
  | inclusion (inclusion : Inclusion) : Nested R (.inclusion inclusion)
  | declared {head : Declaration} {members : List Entry}
      (direct : ∀ member below, .declared member below ∈ members → R head.bare member.bare)
      (inside : ∀ entry ∈ members, Nested R entry) : Nested R (.declared head members)

/-- A property of each declaration of an entry. -/
inductive Entry.Every (P : Declaration → Prop) : Entry → Prop
  | inclusion (inclusion : Inclusion) : Every P (.inclusion inclusion)
  | declared {head : Declaration} {members : List Entry} (here : P head.bare)
      (inside : ∀ entry ∈ members, Every P entry) : Every P (.declared head members)

namespace SourceUnit

/-- Each parent is an earlier declaration that is in a relation to what names it. -/
def Linked (R : Declaration → Declaration → Prop) (u : SourceUnit) : Prop :=
  ∀ (id : Nat) (d : Declaration) (above : Nat), u.decls[id]? = some d → d.parent = some above →
    above < id ∧ ∃ owner : Declaration, u.decls[above]? = some owner ∧ R owner.bare d.bare

/-- A unit with all declarations of an earlier one. -/
def Continues (u later : SourceUnit) : Prop :=
  ∀ (id : Nat) (d : Declaration), u.decls[id]? = some d →
    ∃ same : Declaration, later.decls[id]? = some same ∧ same.bare = d.bare

/-- A declaration is below one that is in a relation to it, or below none. -/
def Below (R : Declaration → Declaration → Prop) (u : SourceUnit) (parent : Option Nat) (d : Declaration) : Prop :=
  ∀ above : Nat, parent = some above → ∃ owner : Declaration, u.decls[above]? = some owner ∧ R owner.bare d.bare

section
variable {R : Declaration → Declaration → Prop} {u later last : SourceUnit} {parent : Option Nat} {d : Declaration}

theorem Continues.refl (u : SourceUnit) : Continues u u := fun _ d found => ⟨d, found, rfl⟩

theorem Continues.trans (first : Continues u later) (second : Continues later last) : Continues u last := by
  intro id d found
  obtain ⟨same, there, bare⟩ := first id d found
  obtain ⟨again, listed, barer⟩ := second id same there
  exact ⟨again, listed, barer.trans bare⟩

theorem continues_push (u : SourceUnit) (decl : Declaration) : Continues u (u.push decl) := by
  intro id d found
  have old : id ≠ u.size := Nat.ne_of_lt (Array.getElem?_eq_some_iff.mp found).1
  rw [getElem?_push, if_neg old, found]
  refine ⟨_, rfl, ?_⟩
  split <;> rfl

theorem Below.kept (below : Below R u parent d) (more : Continues u later) : Below R later parent d := by
  intro above named
  obtain ⟨owner, found, related⟩ := below above named
  obtain ⟨same, there, bare⟩ := more above owner found
  exact ⟨same, there, bare ▸ related⟩

theorem Linked.push (linked : Linked R u) {decl : Declaration} (below : Below R u decl.parent decl) :
    Linked R (u.push decl) := by
  intro id d above found named
  rw [getElem?_push] at found
  split at found
  next new =>
    obtain rfl := Option.some.inj found
    obtain ⟨owner, listed, _⟩ := below above named
    exact ⟨new ▸ (Array.getElem?_eq_some_iff.mp listed).1, below.kept (continues_push u decl) above named⟩
  next =>
    obtain ⟨old, listed, rfl⟩ := Option.map_eq_some_iff.mp found
    have kept : old.parent = some above := by
      rw [← named]
      split <;> rfl
    obtain ⟨earlier, owner, there, related⟩ := linked id old above listed kept
    obtain ⟨same, present, bare⟩ := continues_push u decl above owner there
    refine ⟨earlier, same, present, ?_⟩
    rw [bare]
    split <;> exact related

end

/-- An entry that keeps a unit linked wherever it is appended below what it is related to. -/
def Linkable (R : Declaration → Declaration → Prop) (present : Path → Bool) (entry : Entry) : Prop :=
  ∀ u parent, Linked R u → (∀ head members, entry = .declared head members → Below R u parent head) →
    Linked R (addEntry present parent u entry) ∧ Continues u (addEntry present parent u entry)

section
variable {R : Declaration → Declaration → Prop} {present : Path → Bool}

theorem linked_addEntries {entries : List Entry} (each : ∀ entry ∈ entries, Linkable R present entry)
    {u : SourceUnit} {parent : Option Nat} (linked : Linked R u)
    (below : ∀ head members, .declared head members ∈ entries → Below R u parent head) :
    Linked R (addEntries present parent u entries) ∧ Continues u (addEntries present parent u entries) := by
  induction entries generalizing u with
  | nil => exact ⟨linked, .refl u⟩
  | cons entry rest ih =>
    obtain ⟨first, others⟩ := List.forall_mem_cons.mp each
    obtain ⟨linkedFirst, more⟩ := first u parent linked fun head members same => below head members (by simp [same])
    obtain ⟨linkedAll, all⟩ := ih others linkedFirst fun head members listed =>
      (below head members (List.mem_cons_of_mem _ listed)).kept more
    rw [addEntries]
    exact ⟨linkedAll, more.trans all⟩

theorem linkable_of_nested (present : Path → Bool) {entry : Entry} (nested : entry.Nested R) :
    Linkable R present entry := by
  induction nested with
  | inclusion inclusion =>
    intro u parent linked _
    rw [addEntry]
    cases inclusion.warning? present with
    | none => exact ⟨linked, .refl u⟩
    | some diagnostic => exact ⟨linked, .refl u⟩
  | @declared head members direct _ ih =>
    intro u parent linked below
    have pushed : Linked R (u.push { head with parent }) := linked.push (below head members rfl)
    -- The members are appended below the declaration that was just pushed.
    have owned : ∀ member inner, .declared member inner ∈ members →
        Below R (u.push { head with parent }) (some u.size) member := by
      rintro member inner listed above ⟨⟩
      exact ⟨{ head with parent }, by simp [getElem?_push], direct member inner listed⟩
    obtain ⟨linkedAll, more⟩ := linked_addEntries ih pushed owned
    rw [addEntry]
    exact ⟨linkedAll, (continues_push u _).trans more⟩

theorem linked_ofTree {r : Reading} {root : Node}
    (nested : ∀ entry ∈ (Outline.items r .global [] root.children).1, entry.Nested R) :
    Linked R (ofTree r present root) := by
  have each := fun entry inside => linkable_of_nested present (nested entry inside)
  have empty : Linked R (.empty r.file r.includePaths) := by
    intro id d above found
    simp [SourceUnit.empty] at found
  exact (linked_addEntries each empty fun head members _ above named => by cases named).1

end

/-- A property of each declaration of a unit, whatever its parent and children. -/
def Holds (P : Declaration → Prop) (u : SourceUnit) : Prop :=
  ∀ (id : Nat) (d : Declaration), u.decls[id]? = some d → P d.bare

section
variable {P : Declaration → Prop} {present : Path → Bool} {u : SourceUnit} {parent : Option Nat}

theorem Holds.push (holds : Holds P u) {decl : Declaration} (new : P decl.bare) : Holds P (u.push decl) := by
  intro id d found
  rw [getElem?_push] at found
  split at found
  · obtain rfl := Option.some.inj found
    exact new
  · obtain ⟨old, listed, rfl⟩ := Option.map_eq_some_iff.mp found
    have kept := holds id old listed
    split <;> exact kept

theorem holds_addEntries {entries : List Entry}
    (each : ∀ entry ∈ entries, ∀ u, Holds P u → Holds P (addEntry present parent u entry)) (holds : Holds P u) :
    Holds P (addEntries present parent u entries) := by
  induction entries generalizing u with
  | nil => exact holds
  | cons entry rest ih =>
    obtain ⟨first, others⟩ := List.forall_mem_cons.mp each
    rw [addEntries]
    exact ih others (first u holds)

theorem holds_addEntry {entry : Entry} (every : entry.Every P) (holds : Holds P u) :
    Holds P (addEntry present parent u entry) := by
  induction every generalizing u parent with
  | inclusion inclusion =>
    rw [addEntry]
    cases inclusion.warning? present with
    | none => exact holds
    | some diagnostic => exact holds
  | declared here _ ih =>
    rw [addEntry]
    exact holds_addEntries (fun entry inside _ => ih entry inside) (holds.push here)

theorem holds_ofTree {r : Reading} {root : Node}
    (every : ∀ entry ∈ (Outline.items r .global [] root.children).1, entry.Every P) :
    Holds P (ofTree r present root) := by
  have empty : Holds P (.empty r.file r.includePaths) := by
    intro id d found
    simp [SourceUnit.empty] at found
  exact holds_addEntries (fun entry inside _ => holds_addEntry (every entry inside)) empty

end

end SourceUnit

end MarkerGen
