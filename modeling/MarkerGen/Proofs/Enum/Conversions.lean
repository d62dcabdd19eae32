import MarkerGen.Proofs.Chars.Ends
import MarkerGen.Proofs.Enum.Tables

/-! Reading back what the conversions of an enumeration print. A value is printed as the label of its first
enumerator, and this label is read as the value again exactly if no enumerator before has the same label. Names
that are apart get the same label only if one is the other behind the lead. -/
namespace MarkerGen.Enum

/-- The rows of a table with the values of their enumerators. -/
abbrev Entries := List (Row × Int)

namespace Entries

def distinct (entries : Entries) : Entries := entries.filter (!·.1.isAlias)

/-- What a value is printed as, in a string and in JSON. -/
def print? (entries : Entries) (v : Int) : Option String := (entries.distinct.find? (·.2 == v)).map (·.1.label)

def ofString? (entries : Entries) (text : String) : Option Int := (entries.find? (·.1.label == text)).map (·.2)

def ofJson? (entries : Entries) (text : String) : Option Int :=
  (entries.distinct.find? (·.1.label == text)).map (·.2)

theorem find?_distinct (entries : Entries) (test : Row × Int → Bool) :
    entries.distinct.find? test = entries.find? fun entry => !entry.1.isAlias && test entry := by
  rw [distinct, List.find?_filter]
  congr 1
  funext entry
  rw [Bool.decide_and, Bool.decide_eq_true, Bool.decide_eq_true]

end Entries

/-- A name that is printed without the lead. -/
def Stripped (lead : Option String) (name rest : String) : Prop :=
  rest ≠ "" ∧ ∃ front, lead = some front ∧ name = front ++ rest

/-- Two names of which the first is printed without the lead, and so as the second, which is printed whole. -/
def Shadows (lead : Option String) (name other : String) : Prop :=
  Stripped lead name other ∧ ∀ rest, ¬ Stripped lead other rest

/-- Two names that are printed as one of them. -/
def Alike (lead : Option String) (a b : String) : Prop := Shadows lead a b ∨ Shadows lead b a

section
variable {lead : Option String} {a b name rest : String}

theorem label_stripped (stripped : Stripped lead name rest) : label lead name = rest := by
  obtain ⟨some, front, rfl, rfl⟩ := stripped
  have after : Text.afterLead? front (front ++ rest) = .some rest := by
    rw [Text.afterLead?, Chars.afterLead?_eq_some_iff.mpr String.toList_append, Option.map_some, String.ofList_toList]
  simp [label, after, some]

theorem label_whole (whole : ∀ rest, ¬ Stripped lead name rest) : label lead name = name := by
  unfold label
  split
  next rest after =>
    obtain ⟨front, rfl, found⟩ := Option.bind_eq_some_iff.mp after
    obtain ⟨chars, split, rfl⟩ := Option.map_eq_some_iff.mp found
    have joined : name = front ++ String.ofList chars := by
      rw [← String.toList_inj, String.toList_append, String.toList_ofList]
      exact Chars.afterLead?_eq_some_iff.mp split
    split
    · rfl
    next some => exact absurd ⟨by simpa using some, front, rfl, joined⟩ (whole _)
  next => rfl

theorem label_cases (lead : Option String) (name : String) :
    Stripped lead name (label lead name) ∨ label lead name = name ∧ ∀ rest, ¬ Stripped lead name rest := by
  by_cases some : ∃ rest, Stripped lead name rest
  · obtain ⟨rest, stripped⟩ := some
    exact .inl ((label_stripped stripped).symm ▸ stripped)
  · exact .inr ⟨label_whole (not_exists.mp some), not_exists.mp some⟩

theorem label_eq_iff (apart : a ≠ b) : label lead a = label lead b ↔ Alike lead a b := by
  constructor
  · intro same
    rcases label_cases lead a with left | ⟨left, whole⟩
    · rcases label_cases lead b with right | ⟨right, whole⟩
      · obtain ⟨_, front, rfl, joined⟩ := left
        obtain ⟨_, _, ⟨⟩, joined'⟩ := right
        rw [same, ← joined'] at joined
        exact absurd joined apart
      · rw [same, right] at left
        exact .inl ⟨left, whole⟩
    · rcases label_cases lead b with right | ⟨right, _⟩
      · rw [← same, left] at right
        exact .inr ⟨right, whole⟩
      · exact absurd (left.symm.trans (same.trans right)) apart
  · rintro (⟨stripped, whole⟩ | ⟨stripped, whole⟩)
    · rw [label_stripped stripped, label_whole whole]
    · rw [label_stripped stripped, label_whole whole]

end

section
variable {entries : Entries} {k : Nat} {row : Row} {v : Int} {test : Row × Int → Bool}

theorem find?_first {entry : Row × Int} (here : entries[k]? = some entry) (holds : test entry = true)
    (none : ∀ j < k, ∀ other, entries[j]? = some other → test other = false) : entries.find? test = some entry := by
  obtain ⟨inside, same⟩ := List.getElem?_eq_some_iff.mp here
  refine List.find?_eq_some_iff_getElem.mpr ⟨holds, k, inside, same, fun j before => ?_⟩
  rw [none j before _ (List.getElem?_eq_getElem (before.trans inside)), Bool.not_false]

/-- Where all entries before have other values, the value of an entry is found exactly if none of them passes. -/
theorem find?_value_iff (here : entries[k]? = some (row, v)) (holds : test (row, v) = true)
    (new : ∀ j < k, ∀ other, entries[j]? = some other → other.2 ≠ v) :
    (entries.find? test).map (·.2) = some v ↔ ∀ j < k, ∀ other, entries[j]? = some other → test other = false := by
  constructor
  · intro found j before other there
    obtain ⟨last, first, carries⟩ := Option.map_eq_some_iff.mp found
    obtain ⟨_, i, inside, at_i, none⟩ := List.find?_eq_some_iff_getElem.mp first
    have late : k ≤ i := by
      by_contra early
      exact new i (not_le.mp early) last (List.getElem?_eq_some_iff.mpr ⟨inside, at_i⟩) carries
    obtain ⟨_, rfl⟩ := List.getElem?_eq_some_iff.mp there
    simpa using none j (before.trans_le late)
  · intro none
    rw [find?_first here holds none, Option.map_some]

end

section
variable {lead : Option String} {listed : List Enumerator} {vs : List Int} {k : Nat} {v : Int} {e : Enumerator}

/-- The entries of the enumerators of a declaration with their values. -/
def entriesOf (lead : Option String) (listed : List Enumerator) (vs : List Int) : Entries :=
  (rows lead listed (vs.map some)).zip vs

theorem entry_at {i : Nat} {entry : Row × Int} (found : (entriesOf lead listed vs)[i]? = some entry) :
    (∃ e, listed[i]? = some e ∧ entry.1.label = label lead e.name) ∧
      (entry.1.isAlias = false ↔ ¬ Repeats (vs.map some) i) ∧ vs[i]? = some entry.2 := by
  obtain ⟨row, value⟩ := List.getElem?_zip_eq_some.mp found
  obtain ⟨⟨e, here, _, same⟩, _⟩ := row_at row
  exact ⟨⟨e, here, same⟩, own_iff row, value⟩

variable (lead) in
theorem exists_entry {i : Nat} (length : vs.length = listed.length) (named : listed[i]? = some e) :
    ∃ entry, (entriesOf lead listed vs)[i]? = some entry ∧ entry.1.label = label lead e.name ∧
      (entry.1.isAlias = false ↔ ¬ Repeats (vs.map some) i) ∧ vs[i]? = some entry.2 := by
  have names : (rows lead listed (vs.map some)).map (·.name) = listed.map (·.name) := names_rows (by simpa using length)
  have rows : (rows lead listed (vs.map some)).length = listed.length := by simpa using congrArg List.length names
  obtain ⟨inside, _⟩ := List.getElem?_eq_some_iff.mp named
  have within : i < (entriesOf lead listed vs).length := by
    rw [entriesOf, List.length_zip]
    omega
  have found := List.getElem?_eq_getElem within
  obtain ⟨⟨e', named', same⟩, own, carries⟩ := entry_at found
  obtain rfl : e = e' := Option.some.inj (named.symm.trans named')
  exact ⟨_, found, same, own, carries⟩

theorem names_apart {j : Nat} {earlier : Enumerator} (apart : (listed.map (·.name)).Nodup) (before : j < k)
    (there : listed[j]? = some earlier) (named : listed[k]? = some e) : earlier.name ≠ e.name := by
  intro same
  obtain ⟨inside, _⟩ := List.getElem?_eq_some_iff.mp there
  have equal : (listed.map (·.name))[j]? = (listed.map (·.name))[k]? := by simp [there, named, same]
  exact absurd ((List.getElem?_inj (by simpa using inside) apart).mp equal) (Nat.ne_of_lt before)

theorem Introduces.value_at (new : Introduces (vs.map some) v k) : vs[k]? = some v := by
  simpa using new.carries

variable (lead) in
theorem Introduces.entry (new : Introduces (vs.map some) v k) (length : vs.length = listed.length)
    (named : listed[k]? = some e) :
    ∃ row, (entriesOf lead listed vs)[k]? = some (row, v) ∧ row.label = label lead e.name ∧ row.isAlias = false := by
  obtain ⟨⟨row, value⟩, here, same, own, carries⟩ := exists_entry lead length named
  obtain rfl : value = v := Option.some.inj (carries.symm.trans new.value_at)
  exact ⟨row, here, same, own.mpr new.not_repeats⟩

theorem Introduces.others (new : Introduces (vs.map some) v k) {j : Nat} (before : j < k) {other : Row × Int}
    (there : (entriesOf lead listed vs)[j]? = some other) : other.2 ≠ v := by
  rintro rfl
  obtain ⟨_, _, value⟩ := entry_at there
  exact new.first j before (by simp [value])

theorem Introduces.print_eq (new : Introduces (vs.map some) v k) (length : vs.length = listed.length)
    (named : listed[k]? = some e) : (entriesOf lead listed vs).print? v = some (label lead e.name) := by
  obtain ⟨row, here, same, own⟩ := new.entry lead length named
  have shown : (entriesOf lead listed vs).distinct.find? (·.2 == v) = some (row, v) := by
    rw [Entries.find?_distinct]
    refine find?_first here (by simp [own]) fun j before other there => ?_
    simp [new.others before there]
  rw [Entries.print?, shown, Option.map_some, same]

/-- A label is read as the value that its enumerator introduces exactly if no earlier enumerator that counts is
printed alike. -/
theorem Introduces.read_iff (new : Introduces (vs.map some) v k) (length : vs.length = listed.length)
    (apart : (listed.map (·.name)).Nodup) (named : listed[k]? = some e) {test : Row × Int → Bool} {counts : Nat → Prop}
    (own : counts k) (passes : ∀ i entry, (entriesOf lead listed vs)[i]? = some entry →
      (test entry = true ↔ counts i ∧ entry.1.label = label lead e.name)) :
    ((entriesOf lead listed vs).find? test).map (·.2) = some v ↔
      ∀ j < k, ∀ earlier, listed[j]? = some earlier → counts j → ¬ Alike lead earlier.name e.name := by
  obtain ⟨row, here, same, _⟩ := new.entry lead length named
  rw [find?_value_iff here ((passes k _ here).mpr ⟨own, same⟩) fun j before other there => new.others before there]
  constructor
  · intro none j before earlier there counted alike
    obtain ⟨other, found, label, _, _⟩ := exists_entry lead length there
    have agree := (label_eq_iff (names_apart apart before there named)).mpr alike
    have passed := (passes j other found).mpr ⟨counted, label.trans agree⟩
    simp [none j before other found] at passed
  · intro unlike j before other found
    obtain ⟨⟨earlier, there, label⟩, _, _⟩ := entry_at found
    rw [← Bool.not_eq_true, passes j other found]
    rintro ⟨counted, agree⟩
    exact unlike j before earlier there counted
      ((label_eq_iff (names_apart apart before there named)).mp (label.symm.trans agree))

theorem Introduces.ofString_iff (new : Introduces (vs.map some) v k) (length : vs.length = listed.length)
    (apart : (listed.map (·.name)).Nodup) (named : listed[k]? = some e) :
    (entriesOf lead listed vs).ofString? (label lead e.name) = some v ↔
      ∀ j < k, ∀ earlier, listed[j]? = some earlier → ¬ Alike lead earlier.name e.name := by
  have passes (i : Nat) (entry : Row × Int) (_ : (entriesOf lead listed vs)[i]? = some entry) :
      (entry.1.label == label lead e.name) = true ↔ True ∧ entry.1.label = label lead e.name := by
    rw [beq_iff_eq, true_and]
  have read := new.read_iff length apart named trivial passes
  simp only [true_implies] at read
  exact read

theorem Introduces.ofJson_iff (new : Introduces (vs.map some) v k) (length : vs.length = listed.length)
    (apart : (listed.map (·.name)).Nodup) (named : listed[k]? = some e) :
    (entriesOf lead listed vs).ofJson? (label lead e.name) = some v ↔
      ∀ j < k, ∀ earlier, listed[j]? = some earlier → ¬ Repeats (vs.map some) j →
        ¬ Alike lead earlier.name e.name := by
  have passes (i : Nat) (entry : Row × Int) (found : (entriesOf lead listed vs)[i]? = some entry) :
      (!entry.1.isAlias && entry.1.label == label lead e.name) = true ↔
        ¬ Repeats (vs.map some) i ∧ entry.1.label = label lead e.name := by
    rw [Bool.and_eq_true, Bool.not_eq_true', beq_iff_eq, (entry_at found).2.1]
  rw [Entries.ofJson?, Entries.find?_distinct]
  exact new.read_iff length apart named new.not_repeats passes

end

/-- A value is printed as the label of the enumerator that introduces it. This label is read as the value again
exactly if no earlier enumerator is printed alike, where those that are aliases do not count in JSON. -/
theorem conversions_inverse_iff {d : Declaration} (lead : Option String) {listed : List Enumerator} {vs : List Int}
    (accepted : enumerators d = .ok listed) (known : values listed = .ok (vs.map some))
    (apart : (listed.map (·.name)).Nodup) :
    ∃ t, table d lead = .ok t ∧ ∀ v ∈ vs, ∃ (k : Nat) (e : Enumerator), listed[k]? = some e ∧
      Introduces (vs.map some) v k ∧ Entries.print? (t.rows.zip vs) v = some (label lead e.name) ∧
      (Entries.ofString? (t.rows.zip vs) (label lead e.name) = some v ↔
        ∀ j < k, ∀ earlier, listed[j]? = some earlier → ¬ Alike lead earlier.name e.name) ∧
      (Entries.ofJson? (t.rows.zip vs) (label lead e.name) = some v ↔
        ∀ j < k, ∀ earlier, listed[j]? = some earlier → ¬ Repeats (vs.map some) j →
          ¬ Alike lead earlier.name e.name) := by
  have length : vs.length = listed.length := by simpa using (valuesFrom_at known).1
  refine ⟨_, table_ok_iff.mpr ⟨listed, _, accepted, known, rfl⟩, fun v carried => ?_⟩
  obtain ⟨k, new⟩ := exists_introduces (List.mem_map_of_mem carried)
  obtain ⟨inside, _⟩ := List.getElem?_eq_some_iff.mp new.value_at
  have named : listed[k]? = some listed[k] := List.getElem?_eq_getElem (length ▸ inside)
  exact ⟨k, listed[k], named, new, new.print_eq length named, new.ofString_iff length apart named,
    new.ofJson_iff length apart named⟩

def colors : List Enumerator := [⟨"Color_Red", none⟩, ⟨"Color_Crimson", some "Color_Red"⟩, ⟨"Green", none⟩]

theorem conversions_inverse_colors :
    enumerators (declaring colors) = .ok colors ∧ values colors = .ok ([0, 0, 1].map some) ∧
      (colors.map (·.name)).Nodup ∧
      ∃ t, table (declaring colors) (some "Color_") = .ok t ∧ ∀ v ∈ [0, 0, 1], ∃ (k : Nat) (e : Enumerator),
        colors[k]? = some e ∧ Introduces ([0, 0, 1].map some) v k ∧
        Entries.print? (t.rows.zip [0, 0, 1]) v = some (label (some "Color_") e.name) ∧
        (Entries.ofString? (t.rows.zip [0, 0, 1]) (label (some "Color_") e.name) = some v ↔
          ∀ j < k, ∀ earlier, colors[j]? = some earlier → ¬ Alike (some "Color_") earlier.name e.name) ∧
        (Entries.ofJson? (t.rows.zip [0, 0, 1]) (label (some "Color_") e.name) = some v ↔
          ∀ j < k, ∀ earlier, colors[j]? = some earlier → ¬ Repeats ([0, 0, 1].map some) j →
            ¬ Alike (some "Color_") earlier.name e.name) := by
  have accepted : enumerators (declaring colors) = .ok colors := by decide +kernel
  have known : values colors = .ok ([0, 0, 1].map some) := by decide +kernel
  have apart : (colors.map (·.name)).Nodup := by decide +kernel
  exact ⟨accepted, known, apart, conversions_inverse_iff (some "Color_") accepted known apart⟩

def namesakes : List Enumerator := [⟨"Color_Red", none⟩, ⟨"Red", none⟩]

def namesakesTable : Table := ⟨"n::E", "E", ["n"], [⟨"Color_Red", "Red", false⟩, ⟨"Red", "Red", false⟩]⟩

/-- Of two enumerators that are printed alike, the later one is read back as the earlier. -/
theorem label_read_as_namesake :
    enumerators (declaring namesakes) = .ok namesakes ∧ (namesakes.map (·.name)).Nodup ∧
      values namesakes = .ok [some 0, some 1] ∧ table (declaring namesakes) (some "Color_") = .ok namesakesTable ∧
      Entries.print? (namesakesTable.rows.zip [0, 1]) 1 = some "Red" ∧
      Entries.ofString? (namesakesTable.rows.zip [0, 1]) "Red" = some 0 ∧
      Entries.ofJson? (namesakesTable.rows.zip [0, 1]) "Red" = some 0 := by
  decide +kernel

end MarkerGen.Enum
