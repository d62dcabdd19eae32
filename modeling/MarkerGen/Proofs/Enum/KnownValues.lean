import MarkerGen.Proofs.Enum.LiteralReading
import MarkerGen.Proofs.Enum.Overflow

/-! Where the known values of enumerators come from: zero, the value before, an integer literal, or an
earlier enumerator, unless an initializer is misread. -/
namespace MarkerGen.Enum

open Chars

def initializer? (enumerators : List Enumerator) (i : Nat) : Option String := enumerators[i]?.bind (·.value)

/-- An initializer that is the name of an earlier enumerator with the value `v`. -/
def Named (enumerators : List Enumerator) (vs : List (Option Int)) (i : Nat) (v : Int) : Prop :=
  ∃ text j earlier, initializer? enumerators i = some text ∧ j < i ∧ enumerators[j]? = some earlier ∧
    earlier.name = String.ofList (trim text.toList) ∧ vs[j]? = some (some v)

/-- The ways in which an enumerator of a list with the values `vs` has the value `v`. -/
inductive Explained (enumerators : List Enumerator) (vs : List (Option Int)) : Nat → Int → Prop
  | first (implicit : initializer? enumerators 0 = none) : Explained enumerators vs 0 0
  | successor {i : Nat} {v : Int} (implicit : initializer? enumerators (i + 1) = none)
      (known : vs[i]? = some (some v)) : Explained enumerators vs (i + 1) (v + 1)
  | literal {i : Nat} {v : Int} {text : String} (written : initializer? enumerators i = some text)
      (denotes : Denotes (trim text.toList) v) : Explained enumerators vs i v
  | reference {i : Nat} {v : Int} (named : Named enumerators vs i v) : Explained enumerators vs i v

/-- An initializer that is read as a number without being a literal for it. -/
def Misread (enumerators : List Enumerator) (i : Nat) : Prop :=
  ∃ text v, initializer? enumerators i = some text ∧ literalValue (trim text.toList) = .ok (some v) ∧
    ¬ Tidy (trim text.toList)

/-- The first enumerators with their values. -/
def knownBefore (enumerators : List Enumerator) (vs : List (Option Int)) (i : Nat) : Known :=
  (((enumerators.map (·.name)).zip vs).take i).reverse

variable {enumerators : List Enumerator} {vs : List (Option Int)} {i : Nat} {v : Int} {e : Enumerator}

theorem valuesFrom_at {known : Known} (run : valuesFrom known enumerators = .ok vs) :
    vs.length = enumerators.length ∧ ∀ i e, enumerators[i]? = some e →
      ∃ w, vs[i]? = some w ∧ valueAfter (knownBefore enumerators vs i ++ known) e = .ok w := by
  induction enumerators generalizing known vs with
  | nil =>
    cases run
    simp
  | cons first rest ih =>
    rw [valuesFrom] at run
    cases step : valueAfter known first with
    | error crash => simp [step] at run
    | ok value =>
      cases later : valuesFrom ((first.name, value) :: known) rest with
      | error crash => simp [step, later, Except.map] at run
      | ok others =>
        simp only [step, later, Except.map, Except.ok.injEq] at run
        subst run
        obtain ⟨length, each⟩ := ih later
        refine ⟨by simp [length], fun i e found => ?_⟩
        cases i with
        | zero =>
          obtain rfl := Option.some.inj found
          exact ⟨value, rfl, step⟩
        | succ i =>
          obtain ⟨w, there, after⟩ := each i e found
          refine ⟨w, there, ?_⟩
          simpa [knownBefore] using after

theorem getElem?_knownBefore {j : Nat} {row : String × Option Int}
    (found : (knownBefore enumerators vs i).reverse[j]? = some row) :
    j < i ∧ (∃ earlier, enumerators[j]? = some earlier ∧ earlier.name = row.1) ∧ vs[j]? = some row.2 := by
  rw [knownBefore, List.reverse_reverse, List.getElem?_take] at found
  split at found
  next before =>
    obtain ⟨name, value⟩ := List.getElem?_zip_eq_some.mp found
    rw [List.getElem?_map, Option.map_eq_some_iff] at name
    exact ⟨before, name, value⟩
  next => cases found

theorem named_of_value? {text : String} (written : initializer? enumerators i = some text)
    (known : (knownBefore enumerators vs i).value? (String.ofList (trim text.toList)) = some v) :
    Named enumerators vs i v := by
  obtain ⟨⟨name, value⟩, first, same⟩ := Option.bind_eq_some_iff.mp known
  obtain ⟨j, place⟩ := List.getElem?_of_mem (List.mem_of_find?_eq_some first)
  obtain ⟨before, ⟨earlier, there, named⟩, value⟩ := getElem?_knownBefore place
  have equal : name = String.ofList (trim text.toList) := by simpa using List.find?_some first
  exact ⟨text, j, earlier, written, before, there, named.trans equal, same ▸ value⟩

theorem knownBefore_succ (length : vs.length = enumerators.length) (inside : i < enumerators.length) :
    ∃ name value, vs[i]? = some value ∧
      knownBefore enumerators vs (i + 1) = (name, value) :: knownBefore enumerators vs i := by
  have row : ((enumerators.map (·.name)).zip vs)[i]? = some (enumerators[i].name, vs[i]) := by
    rw [List.getElem?_zip_eq_some]
    simp [inside, length]
  refine ⟨enumerators[i].name, vs[i], by simp [length, inside], ?_⟩
  rw [knownBefore, List.take_add_one, row]
  simp [knownBefore]

theorem explained_of_implicit (length : vs.length = enumerators.length) (found : enumerators[i]? = some e)
    (implicit : e.value = none) (run : valueAfter (knownBefore enumerators vs i) e = .ok (some v)) :
    Explained enumerators vs i v := by
  have unwritten : initializer? enumerators i = none := by simp [initializer?, found, implicit]
  unfold valueAfter at run
  rw [implicit] at run
  cases i with
  | zero =>
    obtain rfl : (0 : Int) = v := by simpa [knownBefore] using run
    exact .first unwritten
  | succ i =>
    obtain ⟨within, _⟩ := List.getElem?_eq_some_iff.mp found
    obtain ⟨name, value, there, rows⟩ := knownBefore_succ length (Nat.lt_of_succ_lt within)
    rw [rows] at run
    obtain ⟨before, rfl, next⟩ := Option.bind_eq_some_iff.mp (Except.ok.inj run)
    split_ifs at next
    obtain rfl := Option.some.inj next
    exact .successor unwritten there

theorem valueAfter_written {known : Known} {text : String} (written : e.value = some text) :
    valueAfter known e =
      (literalValue (trim text.toList)).map (·.or (known.value? (String.ofList (trim text.toList)))) := by
  unfold valueAfter
  rw [written]
  dsimp only
  cases literalValue (trim text.toList) with
  | error crash => rfl
  | ok value => cases value <;> rfl

/-- A known value is explained unless the initializer is misread, and then only by its name. -/
theorem explained_iff (length : vs.length = enumerators.length) (found : enumerators[i]? = some e)
    (run : valueAfter (knownBefore enumerators vs i) e = .ok (some v)) :
    Explained enumerators vs i v ↔ (Misread enumerators i → Named enumerators vs i v) := by
  cases initial : e.value with
  | none =>
    refine iff_of_true (explained_of_implicit length found initial run) ?_
    rintro ⟨text, _, written, _⟩
    simp [initializer?, found, initial] at written
  | some text =>
    have written : initializer? enumerators i = some text := by simp [initializer?, found, initial]
    obtain ⟨_, _, _, _, _, trimmed⟩ := trim_parts text.toList
    rw [valueAfter_written initial] at run
    cases read : literalValue (trim text.toList) with
    | error crash => simp [read, Except.map] at run
    | ok value =>
      rw [read] at run
      cases value with
      | none =>
        have named := named_of_value? written (Except.ok.inj run)
        exact iff_of_true (.reference named) fun _ => named
      | some value =>
        obtain rfl : value = v := by simpa [Except.map] using run
        constructor
        · rintro explained ⟨text', _, written', _, untidy⟩
          obtain rfl := Option.some.inj (written.symm.trans written')
          cases explained with
          | first implicit => simp [implicit] at written
          | successor implicit => simp [implicit] at written
          | literal written' denotes =>
            obtain rfl := Option.some.inj (written.symm.trans written')
            exact absurd ((denotes_iff_tidy trimmed read).mp denotes) untidy
          | reference named => exact named
        · intro misread
          by_cases tidy : Tidy (trim text.toList)
          · exact .literal written ((denotes_iff_tidy trimmed read).mpr tidy)
          · exact .reference (misread ⟨text, value, written, read, tidy⟩)

/-- The values of enumerators are zero, successors, literals, or those of earlier enumerators, except
where an initializer is misread; and no literal below the greatest word is passed over. -/
theorem values_explained_iff (fits : ∀ e ∈ enumerators, ¬ Overflows e) :
    ∃ vs, values enumerators = .ok vs ∧ vs.length = enumerators.length ∧
      (∀ i v, vs[i]? = some (some v) →
        (Explained enumerators vs i v ↔ (Misread enumerators i → Named enumerators vs i v))) ∧
      ∀ i text v, initializer? enumerators i = some text → Denotes (trim text.toList) v →
        (trim text.toList).head? ≠ some '+' → v.natAbs < 2 ^ 127 → vs[i]? = some (some v) := by
  cases run : values enumerators with
  | error crash =>
    obtain ⟨_, e, member, overflow⟩ := (valuesFrom_error_iff []).mp run
    exact absurd overflow (fits e member)
  | ok vs =>
    obtain ⟨length, each⟩ := valuesFrom_at run
    simp only [List.append_nil] at each
    refine ⟨vs, rfl, length, ?_, ?_⟩
    · intro i v known
      obtain ⟨within, _⟩ := List.getElem?_eq_some_iff.mp known
      have found := List.getElem?_eq_getElem (length ▸ within)
      obtain ⟨w, there, step⟩ := each i _ found
      obtain rfl := Option.some.inj (known.symm.trans there)
      exact explained_iff length found step
    · intro i text v written denotes unplussed small
      obtain ⟨e, found, initial⟩ := Option.bind_eq_some_iff.mp written
      obtain ⟨w, there, step⟩ := each i e found
      rw [valueAfter_written initial, literalValue_of_denotes denotes unplussed small] at step
      obtain rfl : some v = w := Except.ok.inj step
      exact there

theorem not_misread (tidy : ∀ e ∈ enumerators, ∀ text ∈ e.value, Tidy (trim text.toList)) :
    ¬ Misread enumerators i := by
  rintro ⟨text, v, written, _, untidy⟩
  obtain ⟨e, found, initial⟩ := Option.bind_eq_some_iff.mp written
  exact untidy (tidy e (List.mem_of_getElem? found) text initial)

def mixed : List Enumerator :=
  [⟨"A", none⟩, ⟨"B", some "0x1'0ul"⟩, ⟨"C", none⟩, ⟨"D", some "- 5"⟩, ⟨"E", some "B"⟩]

theorem values_mixed : values mixed = .ok [some 0, some 16, some 17, some (-5), some 16] := by
  decide +kernel

theorem explained_mixed : Explained mixed [some 0, some 16, some 17, some (-5), some 16] 4 16 := by
  have fits : ∀ e ∈ mixed, ¬ Overflows e := by
    intro e member overflow
    have crash := (valuesFrom_error_iff []).mpr ⟨rfl, e, member, overflow⟩
    rw [← values, values_mixed] at crash
    cases crash
  obtain ⟨vs, run, _, explained, _⟩ := values_explained_iff fits
  obtain rfl := Except.ok.inj (values_mixed.symm.trans run)
  exact (explained 4 16 rfl).mpr fun misread => absurd misread (not_misread (by decide +kernel))

def quoted : List Enumerator := [⟨"A", some "1"⟩, ⟨"B", some "'1'"⟩]

/-- A character literal is read as the number between its quotes. -/
theorem character_read_as_number :
    values quoted = .ok [some 1, some 1] ∧ ¬ Explained quoted [some 1, some 1] 1 1 := by
  refine ⟨by decide +kernel, fun explained => ?_⟩
  have misread : Misread quoted 1 := ⟨"'1'", 1, rfl, by decide +kernel, by decide +kernel⟩
  have run : valueAfter (knownBefore quoted [some 1, some 1] 1) ⟨"B", some "'1'"⟩ = .ok (some 1) := by decide +kernel
  obtain ⟨text, j, earlier, written, before, there, named, _⟩ := (explained_iff rfl rfl run).mp explained misread
  obtain rfl : j = 0 := by omega
  obtain rfl := Option.some.inj written
  obtain rfl := Option.some.inj there
  exact absurd named (by decide +kernel)

end MarkerGen.Enum
