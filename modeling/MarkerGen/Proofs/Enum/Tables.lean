import Mathlib.Data.List.Basic
import Mathlib.Data.Nat.Find
import MarkerGen.Proofs.Enum.KnownValues

/-! The rows of a conversion table: the enumerators in order, and which of them are aliases. The first
enumerator of a known value and every enumerator of unknown value has a row that is no alias. -/
namespace MarkerGen.Enum

/-- An enumerator with the known value of an earlier one. -/
def Repeats (vs : List (Option Int)) (i : Nat) : Prop :=
  ∃ v j, vs[i]? = some (some v) ∧ j < i ∧ vs[j]? = some (some v)

/-- The first enumerator of a value. -/
structure Introduces (vs : List (Option Int)) (v : Int) (k : Nat) : Prop where
  carries : vs[k]? = some (some v)
  first : ∀ j < k, vs[j]? ≠ some (some v)

section
variable {vs : List (Option Int)} {v : Int} {i k : Nat}

theorem exists_introduces (carried : some v ∈ vs) : ∃ k, Introduces vs v k := by
  have place : ∃ k, vs[k]? = some (some v) := List.mem_iff_getElem?.mp carried
  exact ⟨Nat.find place, Nat.find_spec place, fun _ before => Nat.find_min place before⟩

theorem Introduces.eq_of_not_repeats (new : Introduces vs v k) (carries : vs[i]? = some (some v))
    (own : ¬ Repeats vs i) : i = k := by
  rcases Nat.lt_trichotomy i k with before | same | behind
  · exact absurd carries (new.first i before)
  · exact same
  · exact absurd ⟨v, k, carries, behind, new.carries⟩ own

theorem Introduces.not_repeats (new : Introduces vs v k) : ¬ Repeats vs k := by
  rintro ⟨w, j, carries, before, earlier⟩
  obtain rfl : v = w := by simpa using new.carries.symm.trans carries
  exact new.first j before earlier

theorem not_repeats_of_unknown (unknown : vs[i]? = some none) : ¬ Repeats vs i := by
  rintro ⟨v, _, known, _⟩
  simp [unknown] at known

end

theorem getElem?_aliasesFrom (seen values : List (Option Int)) (i : Nat) :
    (aliasesFrom seen values)[i]? =
      values[i]?.map fun value => value.isSome && (seen ++ values.take i).contains value := by
  induction values generalizing seen i with
  | nil => rfl
  | cons value rest ih =>
    cases i with
    | zero => simp [aliasesFrom]
    | succ i => simp [aliasesFrom, ih]

theorem length_aliasesFrom (seen values : List (Option Int)) : (aliasesFrom seen values).length = values.length := by
  induction values generalizing seen with
  | nil => rfl
  | cons value rest ih => rw [aliasesFrom, List.length_cons, ih, List.length_cons]

section
variable {lead : Option String} {listed : List Enumerator} {vs : List (Option Int)} {i : Nat} {row : Row}

theorem alias_iff {isAlias : Bool} (found : (aliases vs)[i]? = some isAlias) : isAlias = true ↔ Repeats vs i := by
  rw [aliases, getElem?_aliasesFrom, List.nil_append] at found
  obtain ⟨value, here, rfl⟩ := Option.map_eq_some_iff.mp found
  cases value with
  | none => exact iff_of_false Bool.false_ne_true (not_repeats_of_unknown here)
  | some v =>
    have earlier : some v ∈ vs.take i ↔ ∃ j < i, vs[j]? = some (some v) := by
      simp [List.mem_iff_getElem?, List.getElem?_take]
    rw [Option.isSome_some, Bool.true_and, List.contains_iff_mem, earlier]
    constructor
    · rintro ⟨j, before, there⟩
      exact ⟨v, j, here, before, there⟩
    · rintro ⟨w, j, known, before, there⟩
      obtain rfl : v = w := by simpa using here.symm.trans known
      exact ⟨j, before, there⟩

theorem row_at (found : (rows lead listed vs)[i]? = some row) :
    (∃ e, listed[i]? = some e ∧ row.name = e.name ∧ row.label = label lead e.name) ∧
      (row.isAlias = true ↔ Repeats vs i) := by
  rw [rows, List.getElem?_map, Option.map_eq_some_iff] at found
  obtain ⟨⟨e, isAlias⟩, both, rfl⟩ := found
  obtain ⟨here, flag⟩ := List.getElem?_zip_eq_some.mp both
  exact ⟨⟨e, here, rfl, rfl⟩, alias_iff flag⟩

theorem own_iff (found : (rows lead listed vs)[i]? = some row) : row.isAlias = false ↔ ¬ Repeats vs i := by
  rw [← (row_at found).2, Bool.not_eq_true]

theorem names_rows (length : vs.length = listed.length) :
    (rows lead listed vs).map (·.name) = listed.map (·.name) := by
  have fits : listed.length ≤ (aliases vs).length := by rw [aliases, length_aliasesFrom, length]
  calc (rows lead listed vs).map (·.name)
      = ((listed.zip (aliases vs)).map Prod.fst).map (·.name) := by rw [rows, List.map_map, List.map_map]; rfl
    _ = listed.map (·.name) := by rw [List.map_fst_zip fits]

theorem table_ok_iff {d : Declaration} {t : Table} :
    table d lead = .ok t ↔ ∃ listed vs, enumerators d = .ok listed ∧ values listed = .ok vs ∧
      t = ⟨d.qualifiedName, localName d.namespaces d.qualifiedName, d.namespaces, rows lead listed vs⟩ := by
  unfold table
  cases enumerators d with
  | error error => simp
  | ok listed =>
    cases run : values listed with
    | error crash => simp [run]
    | ok vs => simp [run, eq_comm]

end

/-- The declaration of an enumeration with the given enumerators. -/
def declaring (enumerators : List Enumerator) : Declaration where
  kind := .enumeration
  name := "E"
  qualifiedName := "n::E"
  namespaces := ["n"]
  enclosingRecords := []
  location := ⟨⟨"e.hpp"⟩, 1, 1⟩
  annotations := []
  templateParams := []
  access := .publicMember
  parent := none
  children := []
  detail := .enumeration ⟨true, none, enumerators⟩

end MarkerGen.Enum
