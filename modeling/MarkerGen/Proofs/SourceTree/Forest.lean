import Mathlib.Logic.Relation
import Mathlib.Order.Nat
import MarkerGen.Proofs.SourceTree.Names
import MarkerGen.Proofs.SourceUnit.Children

/-! The declarations of a source tree are a forest in pre-order. An entry is appended below a
declaration that is the last one or has the last one below it, and this alone makes the members of a
record a block behind it. -/
namespace MarkerGen
open Relation (ReflTransGen TransGen)

def Above (parent : Nat → Option Nat) (above position : Nat) : Prop := parent position = some above

section
variable {parent : Nat → Option Nat} {size id : Nat}

/-- If the parent of each position is the position before it or stands above that, then what stands
below a position is a block behind it. -/
theorem block_of_preorder (earlier : ∀ above position, Above parent above position → above < position)
    (bound : ∀ above position, Above parent above position → position < size)
    (preorder : ∀ above last, Above parent above (last + 1) → ReflTransGen (Above parent) above last)
    (inside : id < size) :
    ∃ stop, id < stop ∧ stop ≤ size ∧ ∀ member, TransGen (Above parent) id member ↔ id < member ∧ member < stop := by
  classical
  have after {member : Nat} (below : TransGen (Above parent) id member) : id < member := by
    induction below with
    | single step => exact earlier _ _ step
    | tail _ step ih => exact ih.trans (earlier _ _ step)
  -- The way to a position passes the position before it.
  have down {member between : Nat} (below : TransGen (Above parent) id member) (less : id < between)
      (upTo : between ≤ member) : TransGen (Above parent) id between := by
    induction upTo with
    | refl => exact below
    | @step last reaches ih =>
      obtain ⟨above, path, step⟩ := TransGen.tail'_iff.mp below
      rcases Relation.reflTransGen_iff_eq_or_transGen.mp (path.trans (preorder above last step)) with same | strict
      · subst same
        exact absurd reaches (Nat.not_le.mpr less)
      · exact ih strict
  have outside : id < size ∧ ¬ TransGen (Above parent) id size := by
    refine ⟨inside, fun below => ?_⟩
    obtain ⟨above, _, step⟩ := TransGen.tail'_iff.mp below
    exact Nat.lt_irrefl _ (bound above size step)
  have ends : ∃ stop, id < stop ∧ ¬ TransGen (Above parent) id stop := ⟨size, outside⟩
  refine ⟨Nat.find ends, (Nat.find_spec ends).1, Nat.find_min' ends outside, fun member => ⟨fun below => ?_, ?_⟩⟩
  · refine ⟨after below, Nat.not_le.mp fun beyond => ?_⟩
    exact (Nat.find_spec ends).2 (down below (Nat.find_spec ends).1 beyond)
  · rintro ⟨less, before⟩
    by_contra apart
    exact Nat.find_min ends before ⟨less, apart⟩

end

namespace SourceUnit

/-- A declaration as it was appended, with the segments of its own name. -/
abbrev Row := Declaration × List String

def parentIn (rows : List Row) (position : Nat) : Option Nat := rows[position]?.bind (·.1.parent)

/-- The records around what is appended below a parent. -/
def Owner (rows : List Row) (records : List String) : Option Nat → Prop
  | none => records = []
  | some parent => ∃ row, rows[parent]? = some row ∧ row.1.kind.isRecord = true ∧
      records = row.1.enclosingRecords ++ row.2

/-- A parent that is the last row or has the last row below it. -/
def Tip (rows : List Row) : Option Nat → Prop
  | none => True
  | some parent => ∃ last, rows.length = last + 1 ∧ ReflTransGen (Above (parentIn rows)) parent last

/-- A unit that was made by appending declarations, each below a parent at the tip. -/
inductive Grown (r : Reading) (root : Node) : SourceUnit → List Row → Prop
  | empty (path : Path) (includePaths : List Path) : Grown r root (.empty path includePaths) []
  | push {u : SourceUnit} {rows : List Row} {decl : Declaration} {own : List String} (before : Grown r root u rows)
      (written : Written r root decl.kind decl.location own) (last : own.getLast? = some decl.name)
      (qualified : decl.qualifiedName = Text.join "::" (decl.namespaces ++ decl.enclosingRecords ++ own))
      (childless : decl.children = []) (owner : Owner rows decl.enclosingRecords decl.parent)
      (tip : Tip rows decl.parent) :
      Grown r root (u.push decl) (rows ++ [(decl, own)])
  | report {u : SourceUnit} {rows : List Row} (diagnostic : Diagnostic) (before : Grown r root u rows) :
      Grown r root (u.report diagnostic) rows

section
variable {r : Reading} {root : Node} {u : SourceUnit} {rows more : List Row} {records : List String}
  {parent : Option Nat}

theorem Grown.pushed (grown : Grown r root u rows) : Pushed u := by
  induction grown with
  | empty path includePaths => exact .empty path includePaths
  | push _ _ _ _ childless _ _ ih => exact .push _ ih childless
  | report diagnostic _ ih => exact .report diagnostic ih

theorem Grown.length_eq (grown : Grown r root u rows) : rows.length = u.size := by
  induction grown with
  | empty path includePaths => rfl
  | push _ _ _ _ _ _ _ ih => simp [ih]
  | report diagnostic _ ih => exact ih

theorem row_append {position : Nat} {row : Row} (found : rows[position]? = some row) :
    (rows ++ more)[position]? = some row := by
  rw [List.getElem?_append_left (List.getElem?_eq_some_iff.mp found).1, found]

/-- A row is the declaration without the children that were entered later. -/
theorem Grown.row_at (grown : Grown r root u rows) {id : Nat} {d : Declaration} (found : u.decls[id]? = some d) :
    ∃ own, rows[id]? = some ({ d with children := [] }, own) := by
  induction grown generalizing d with
  | empty path includePaths => simp [SourceUnit.empty] at found
  | report diagnostic _ ih => exact ih found
  | @push u rows decl own before _ _ _ childless _ _ ih =>
    rw [getElem?_push, ← before.length_eq] at found
    split at found
    next last =>
      cases found
      exact ⟨own, by simp [last, ← childless]⟩
    next earlier =>
      obtain ⟨old, present, rfl⟩ := Option.map_eq_some_iff.mp found
      obtain ⟨name, listed⟩ := ih present
      refine ⟨name, ?_⟩
      rw [row_append listed]
      split <;> rfl

theorem above_append {above position : Nat} (step : Above (parentIn rows) above position) :
    Above (parentIn (rows ++ more)) above position := by
  obtain ⟨row, found, named⟩ := Option.bind_eq_some_iff.mp step
  exact Option.bind_eq_some_iff.mpr ⟨row, row_append found, named⟩

theorem path_append {above position : Nat} (path : ReflTransGen (Above (parentIn rows)) above position) :
    ReflTransGen (Above (parentIn (rows ++ more))) above position := by
  induction path with
  | refl => exact .refl
  | tail _ step ih => exact ih.tail (above_append step)

theorem Owner.append (owner : Owner rows records parent) : Owner (rows ++ more) records parent := by
  cases parent with
  | none => exact owner
  | some position =>
    obtain ⟨row, found, rest⟩ := owner
    exact ⟨row, row_append found, rest⟩

theorem tip_parent {row : Row} (after : Tip (rows ++ [row] ++ more) (some rows.length)) :
    Tip (rows ++ [row] ++ more) row.1.parent := by
  cases below : row.1.parent with
  | none => trivial
  | some position =>
    obtain ⟨last, length, path⟩ := after
    refine ⟨last, length, .head ?_ path⟩
    exact above_append (Option.bind_eq_some_iff.mpr ⟨row, by simp, below⟩)

end

/-- An entry that can be appended inside records, wherever these are at the tip. -/
def Addable (r : Reading) (root : Node) (present : Path → Bool) (records : List String) (entry : Entry) : Prop :=
  ∀ u rows parent, Grown r root u rows → Owner rows records parent → Tip rows parent →
    ∃ more, Grown r root (addEntry present parent u entry) (rows ++ more) ∧ Tip (rows ++ more) parent

section
variable {r : Reading} {root : Node} {present : Path → Bool} {records : List String}

theorem grown_addEntries {entries : List Entry} (each : ∀ entry ∈ entries, Addable r root present records entry)
    {u : SourceUnit} {rows : List Row} {parent : Option Nat} (grown : Grown r root u rows)
    (owner : entries ≠ [] → Owner rows records parent) (tip : Tip rows parent) :
    ∃ more, Grown r root (addEntries present parent u entries) (rows ++ more) ∧ Tip (rows ++ more) parent := by
  induction entries generalizing u rows with
  | nil => exact ⟨[], by simpa [addEntries] using grown, by simpa using tip⟩
  | cons entry rest ih =>
    have owned := owner (List.cons_ne_nil _ _)
    obtain ⟨first, grownFirst, tipFirst⟩ := each entry List.mem_cons_self u rows parent grown owned tip
    obtain ⟨others, grownAll, tipAll⟩ := ih (fun other inside => each other (List.mem_cons_of_mem _ inside)) grownFirst
      (fun _ => owned.append) tipFirst
    rw [List.append_assoc] at grownAll tipAll
    exact ⟨first ++ others, by rwa [addEntries], tipAll⟩

theorem addable_of_fits (present : Path → Bool) {entry : Entry} (fits : entry.Fits r root records) :
    Addable r root present records entry := by
  induction fits with
  | inclusion inclusion =>
    intro u rows parent grown _ tip
    refine ⟨[], ?_, by simpa using tip⟩
    rw [addEntry, List.append_nil]
    cases inclusion.warning? present with
    | none => exact grown
    | some diagnostic => exact .report diagnostic grown
  | @declared records own head members written last enclosing qualified childless isOwner _ ih =>
    intro u rows parent grown owner tip
    have grownHead : Grown r root (u.push { head with parent }) (rows ++ [({ head with parent }, own)]) := by
      subst enclosing
      exact .push grown written last qualified childless owner tip
    -- The new row is the last one, and the owner of its members.
    have tipHead : Tip (rows ++ [({ head with parent }, own)]) (some rows.length) := ⟨rows.length, by simp, .refl⟩
    have ownerHead (nonempty : members ≠ []) :
        Owner (rows ++ [({ head with parent }, own)]) (records ++ own) (some rows.length) :=
      ⟨({ head with parent }, own), by simp, isOwner nonempty, by rw [← enclosing]⟩
    obtain ⟨more, grownAll, tipAll⟩ := grown_addEntries ih grownHead ownerHead tipHead
    refine ⟨({ head with parent }, own) :: more, ?_, ?_⟩
    · rw [addEntry, ← grown.length_eq, List.append_cons]
      exact grownAll
    · rw [List.append_cons]
      exact tip_parent tipAll

end

theorem grown_ofTree (r : Reading) (present : Path → Bool) (root : Node) :
    ∃ rows, Grown r root (ofTree r present root) rows := by
  have each := fun entry inside => addable_of_fits present (Outline.fits_outline r root entry inside)
  have owner : Owner [] [] none := rfl
  have tip : Tip [] none := trivial
  obtain ⟨rows, grown, _⟩ := grown_addEntries each (.empty r.file r.includePaths) (fun _ => owner) tip
  exact ⟨[] ++ rows, grown⟩

section
variable {r : Reading} {root : Node} {u : SourceUnit} {rows : List Row}

theorem Grown.parentAt_eq (grown : Grown r root u rows) : u.parentAt = parentIn rows := by
  funext id
  cases found : u.decls[id]? with
  | none =>
    have missing : rows[id]? = none := by
      rw [List.getElem?_eq_none_iff, grown.length_eq]
      exact Array.getElem?_eq_none_iff.mp found
    rw [parentAt, parentIn, found, missing]
    rfl
  | some d =>
    obtain ⟨own, row⟩ := grown.row_at found
    rw [parentAt, parentIn, found, row]
    rfl

structure Placed (r : Reading) (root : Node) (rows : List Row) (id : Nat) (row : Row) : Prop where
  written : Written r root row.1.kind row.1.location row.2
  last : row.2.getLast? = some row.1.name
  qualified : row.1.qualifiedName = Text.join "::" (row.1.namespaces ++ row.1.enclosingRecords ++ row.2)
  owner : Owner rows row.1.enclosingRecords row.1.parent
  earlier : ∀ parent, row.1.parent = some parent → parent < id
  preorder : ∀ parent last, row.1.parent = some parent → id = last + 1 →
    ReflTransGen (Above (parentIn rows)) parent last

theorem Placed.append {more : List Row} {id : Nat} {row : Row} (placed : Placed r root rows id row) :
    Placed r root (rows ++ more) id row where
  written := placed.written
  last := placed.last
  qualified := placed.qualified
  owner := placed.owner.append
  earlier := placed.earlier
  preorder parent last below next := path_append (placed.preorder parent last below next)

theorem Grown.placed (grown : Grown r root u rows) {id : Nat} {row : Row} (found : rows[id]? = some row) :
    Placed r root rows id row := by
  induction grown with
  | empty path includePaths => simp at found
  | report diagnostic _ ih => exact ih found
  | @push u rows decl own _ written last qualified childless owner tip ih =>
    rcases Nat.lt_trichotomy id rows.length with old | new | beyond
    · rw [List.getElem?_append_left old] at found
      exact (ih found).append
    · subst new
      rw [List.getElem?_concat_length] at found
      cases found
      refine ⟨written, last, qualified, owner.append, fun parent below => ?_, fun parent before below next => ?_⟩
      · rw [show decl.parent = some parent from below] at owner
        obtain ⟨_, present, _⟩ := owner
        exact (List.getElem?_eq_some_iff.mp present).1
      · rw [show decl.parent = some parent from below] at tip
        obtain ⟨reached, length, path⟩ := tip
        have same : reached = before := by omega
        exact path_append (same ▸ path)
    · have none : (rows ++ [(decl, own)])[id]? = none := by
        rw [List.getElem?_eq_none_iff, List.length_append, List.length_singleton]
        omega
      rw [none] at found
      cases found

theorem Grown.block (grown : Grown r root u rows) {id : Nat} (inside : id < u.size) :
    ∃ stop, id < stop ∧ stop ≤ u.size ∧
      ∀ member, TransGen (Above u.parentAt) id member ↔ id < member ∧ member < stop := by
  rw [grown.parentAt_eq]
  have row {above position : Nat} (step : Above (parentIn rows) above position) :
      ∃ row, rows[position]? = some row ∧ row.1.parent = some above := Option.bind_eq_some_iff.mp step
  refine block_of_preorder (fun above position step => ?_) (fun above position step => ?_)
    (fun above last step => ?_) inside
  · obtain ⟨_, found, below⟩ := row step
    exact (grown.placed found).earlier above below
  · obtain ⟨_, found, _⟩ := row step
    rw [← grown.length_eq]
    exact (List.getElem?_eq_some_iff.mp found).1
  · obtain ⟨_, found, below⟩ := row step
    exact (grown.placed found).preorder above last below rfl

theorem Grown.children_eq (grown : Grown r root u rows) {id : Nat} {d : Declaration} (found : u.decls[id]? = some d) :
    d.children = (List.range u.size).filter (u.parentAt · == some id) := by
  rw [grown.pushed.children_eq found, adopted]
  apply List.filter_congr
  intro child _
  cases named : u.parentAt child == some id with
  | false => simp
  | true =>
    rw [grown.parentAt_eq] at named
    obtain ⟨row, listed, below⟩ := Option.bind_eq_some_iff.mp (beq_iff_eq.mp named)
    simp [(grown.placed listed).earlier id below]

end

/-- The declarations of a source tree are a forest in pre-order: parents are earlier records, the
children of a declaration are those that name it as their parent, and what is below a declaration is
a block behind it. Each is named after its namespaces, the records around it and the name that is
written for it, and the records around a member are those around its parent and the parent itself. -/
theorem ofTree_forest (r : Reading) (present : Path → Bool) (root : Node) :
    (∀ text, (QualifiedName.segments text).getLast? ≠ some "" →
      QualifiedName.own text = (QualifiedName.segments text).filter (· ≠ "")) ∧
    ∃ own : Nat → List String, ∀ id d, (ofTree r present root).decls[id]? = some d →
      Written r root d.kind d.location (own id) ∧ (own id).getLast? = some d.name ∧
      d.qualifiedName = Text.join "::" (d.namespaces ++ d.enclosingRecords ++ own id) ∧
      (∀ parent, d.parent = some parent → parent < id ∧ ∃ above, (ofTree r present root).decls[parent]? = some above ∧
        above.kind.isRecord = true ∧ d.enclosingRecords = above.enclosingRecords ++ own parent) ∧
      (d.parent = none → d.enclosingRecords = []) ∧
      d.children = (List.range (ofTree r present root).size).filter ((ofTree r present root).parentAt · == some id) ∧
      ∃ stop, id < stop ∧ stop ≤ (ofTree r present root).size ∧
        ∀ member, TransGen (Above (ofTree r present root).parentAt) id member ↔ id < member ∧ member < stop := by
  refine ⟨fun text => QualifiedName.own_eq_filter, ?_⟩
  obtain ⟨rows, grown⟩ := grown_ofTree r present root
  generalize ofTree r present root = u at grown ⊢
  refine ⟨fun id => (rows[id]?.map (·.2)).getD [], fun id d found => ?_⟩
  obtain ⟨name, listed⟩ := grown.row_at found
  have placed := grown.placed listed
  have inside : id < u.size := (Array.getElem?_eq_some_iff.mp found).1
  simp only [listed, Option.map_some, Option.getD_some]
  refine ⟨placed.written, placed.last, placed.qualified, fun parent below => ?_, fun orphan => ?_,
    grown.children_eq found, grown.block inside⟩
  · have less := placed.earlier parent below
    have bound : parent < u.decls.size := less.trans inside
    have present : u.decls[parent]? = some u.decls[parent] := Array.getElem?_eq_getElem bound
    obtain ⟨name, listedAbove⟩ := grown.row_at present
    have owner := placed.owner
    rw [show ({ d with children := [] } : Declaration).parent = some parent from below] at owner
    obtain ⟨row, same, isRecord, records⟩ := owner
    cases listedAbove.symm.trans same
    exact ⟨less, _, present, isRecord, by simpa [listedAbove] using records⟩
  · have owner := placed.owner
    rw [show ({ d with children := [] } : Declaration).parent = none from orphan] at owner
    exact owner

end SourceUnit

end MarkerGen
