import MarkerGen.Enum.Render
import MarkerGen.Proofs.Chars.Ends
import MarkerGen.Proofs.Chars.Split
import MarkerGen.Proofs.Enum.Tables

/-! The lines of rendered conversions. The case labels and the rows for JSON stand on lines of their own, one
for each row of the table that is no alias, in the order of the table. -/
namespace MarkerGen

namespace Text

/-- A text without line breaks. -/
def Flat (s : String) : Prop := '\n' ∉ s.toList

instance (s : String) : Decidable (Flat s) := inferInstanceAs (Decidable ('\n' ∉ s.toList))

/-- A text in lines of which those with a lead are the given ones. Where the lines are `flat`, they are the
pieces between the line breaks. -/
def Shows (flat : Prop) (lead text : String) (shown : List String) : Prop :=
  ∃ ls, text = lines ls ∧ ls.filter (startsWith lead) = shown ∧ (flat → splitAt '\n' text = ls ++ [""])

section
variable {a b lead : String} {ls : List String}

@[simp] theorem flat_append : Flat (a ++ b) ↔ Flat a ∧ Flat b := by
  simp [Flat, not_or]

theorem flat_escape (flat : Flat a) : Flat (escape a) := by
  unfold Flat escape at *
  rw [String.toList_ofList]
  generalize a.toList = s at flat
  induction s with
  | nil => exact List.not_mem_nil
  | cons c s ih =>
    rw [List.mem_cons, not_or] at flat
    rw [escapeChars]
    split <;> simp [flat.1, ih flat.2]

theorem startsWith_append (short : lead.length ≤ a.length) : startsWith lead (a ++ b) = startsWith lead a := by
  rw [Bool.eq_iff_iff, startsWith, startsWith, Chars.startsWith_iff, Chars.startsWith_iff, String.toList_append]
  constructor
  · intro starts
    exact List.prefix_of_prefix_length_le starts (List.prefix_append _ _) (by simpa only [String.length_toList] using short)
  · intro starts
    exact starts.trans (List.prefix_append _ _)

/-- An indented lead stands before no text that is not indented. -/
theorem startsWith_plain (indented : startsWith " " lead = true) (plain : startsWith " " a = false) :
    startsWith lead a = false := by
  rw [← Bool.not_eq_true] at plain ⊢
  intro starts
  exact plain (Chars.startsWith_iff.mpr ((Chars.startsWith_iff.mp indented).trans (Chars.startsWith_iff.mp starts)))

theorem filter_none (other : ∀ line ∈ ls, startsWith lead line = false) : ls.filter (startsWith lead) = [] :=
  List.filter_eq_nil_iff.mpr fun line listed => by simp [other line listed]

theorem filter_between {head marked tail : List String} (before : ∀ line ∈ head, startsWith lead line = false)
    (all : ∀ line ∈ marked, startsWith lead line = true) (after : ∀ line ∈ tail, startsWith lead line = false) :
    (head ++ marked ++ tail).filter (startsWith lead) = marked := by
  rw [List.filter_append, List.filter_append, filter_none before, filter_none after, List.filter_eq_self.mpr all,
    List.nil_append, List.append_nil]

theorem lines_append (front back : List String) : lines (front ++ back) = lines front ++ lines back := by
  simp [lines, String.join_append]

theorem splitAt_lines (flat : ∀ line ∈ ls, Flat line) : splitAt '\n' (lines ls) = ls ++ [""] := by
  induction ls with
  | nil => rfl
  | cons line rest ih =>
    obtain ⟨first, later⟩ := List.forall_mem_cons.mp flat
    have free : ∀ c ∈ line.toList, (c == '\n') = false := fun c inside => by
      simpa using fun same : c = '\n' => first (same ▸ inside)
    have joined : (lines (line :: rest)).toList = line.toList ++ '\n' :: (lines rest).toList := by
      simp [lines, String.join_cons]
    have split : Chars.splitAt (· == '\n') (line.toList ++ '\n' :: (lines rest).toList) =
        Chars.splitAt (· == '\n') line.toList ++ Chars.splitAt (· == '\n') (lines rest).toList :=
      Chars.splitAt_append_cons _ _ rfl
    have others := ih later
    rw [splitAt] at others
    rw [splitAt, joined, split, Chars.splitAt_of_free free, List.map_append, others, List.map_singleton,
      String.ofList_toList]
    rfl

end

end Text

namespace Enum
open Text

/-- A table without line breaks in its names and labels. -/
structure Table.Flat (t : Table) : Prop where
  qualifiedName : Text.Flat t.qualifiedName
  localName : Text.Flat t.localName
  namespaces : ∀ name ∈ t.namespaces, Text.Flat name
  rows : ∀ row ∈ t.rows, Text.Flat row.name ∧ Text.Flat row.label

section
variable {t : Table} {lead : String} {row : Row}

theorem Table.Flat.qualify (flat : t.Flat) (member : row ∈ t.rows) : Text.Flat (t.qualify row) := by
  unfold Table.qualify
  rw [flat_append, flat_append]
  exact ⟨⟨flat.qualifiedName, by decide⟩, (flat.rows row member).1⟩

/-- The lines in front of a body inside the namespaces of a table, and those behind. -/
def openingLines (t : Table) (includes : List String) : List String :=
  ["#pragma once", ""] ++ includes.map ("#include " ++ ·) ++ [""] ++
    t.namespaces.map (fun name => "namespace " ++ name ++ " \x7b") ++ if t.namespaces.isEmpty then [] else [""]

def closingLines (t : Table) : List String :=
  (if t.namespaces.isEmpty then [] else [""]) ++ t.namespaces.reverse.map fun name => "\x7d // namespace " ++ name

theorem wrap_lines (t : Table) (includes body : List String) :
    wrap t includes (lines body) = lines (openingLines t includes ++ body ++ closingLines t) := by
  have gap : (if t.namespaces.isEmpty then "" else "\n") = lines (if t.namespaces.isEmpty then [] else [""]) := by
    cases t.namespaces.isEmpty with
    | false => decide +kernel
    | true => rfl
  have pragma : "#pragma once\n\n" = lines ["#pragma once", ""] := by decide +kernel
  have blank : "\n" = lines [""] := by decide +kernel
  unfold wrap openingLines closingLines
  dsimp only
  rw [gap, pragma, blank]
  simp only [lines_append]
  simp only [String.append_assoc]

/-- No line around the body is indented. -/
theorem opening_plain (t : Table) (includes : List String) :
    ∀ line ∈ openingLines t includes, startsWith " " line = false := by
  unfold openingLines
  simp only [List.forall_mem_append, List.forall_mem_map]
  refine ⟨⟨⟨⟨by decide, fun file _ => ?_⟩, by decide⟩, fun name _ => ?_⟩, ?_⟩
  · rw [startsWith_append (by decide)]
    decide
  · rw [String.append_assoc, startsWith_append (by decide)]
    decide
  · split <;> decide

theorem closing_plain (t : Table) : ∀ line ∈ closingLines t, startsWith " " line = false := by
  unfold closingLines
  simp only [List.forall_mem_append, List.forall_mem_map]
  refine ⟨by split <;> decide, fun name _ => ?_⟩
  rw [startsWith_append (by decide)]
  decide

theorem opening_flat (flat : t.Flat) {includes : List String} (named : ∀ file ∈ includes, Text.Flat file) :
    ∀ line ∈ openingLines t includes, Text.Flat line := by
  unfold openingLines
  simp only [List.forall_mem_append, List.forall_mem_map, flat_append]
  refine ⟨⟨⟨⟨by decide, fun file listed => ⟨by decide, named file listed⟩⟩, by decide⟩, fun name listed => ?_⟩, ?_⟩
  · exact ⟨⟨by decide, flat.namespaces name listed⟩, by decide⟩
  · split <;> decide

theorem closing_flat (flat : t.Flat) : ∀ line ∈ closingLines t, Text.Flat line := by
  unfold closingLines
  simp only [List.forall_mem_append, List.forall_mem_map, flat_append]
  refine ⟨by split <;> decide, fun name listed => ⟨by decide, flat.namespaces name ?_⟩⟩
  exact List.mem_reverse.mp listed

theorem shows_wrap {includes body shown : List String} (indented : startsWith " " lead = true)
    (named : ∀ file ∈ includes, Text.Flat file) (inner : t.Flat → ∀ line ∈ body, Text.Flat line)
    (filtered : body.filter (startsWith lead) = shown) : Shows t.Flat lead (wrap t includes (lines body)) shown := by
  refine ⟨openingLines t includes ++ body ++ closingLines t, wrap_lines t includes body, ?_, fun flat => ?_⟩
  · have opening := filter_none fun line listed => startsWith_plain indented (opening_plain t includes line listed)
    have closing := filter_none fun line listed => startsWith_plain indented (closing_plain t line listed)
    rw [List.filter_append, List.filter_append, opening, closing, filtered, List.nil_append, List.append_nil]
  · rw [wrap_lines]
    refine splitAt_lines (List.forall_mem_append.mpr ⟨List.forall_mem_append.mpr ⟨?_, inner flat⟩, closing_flat flat⟩)
    exact opening_flat flat named

theorem caseLine_starts (t : Table) (row : Row) : startsWith "    case " (caseLine t row) = true := by
  unfold caseLine
  rw [String.append_assoc, String.append_assoc, String.append_assoc, startsWith_append (by decide)]
  decide

/-- A line that begins with a lead and a name that is set off by a mark. -/
def Labelled (lead name mark line : String) : Prop := startsWith (lead ++ name ++ mark) line = true

theorem labelled_append (name mark rest : String) : Labelled lead name mark (lead ++ name ++ mark ++ rest) := by
  rw [Labelled, startsWith_append (Nat.le_refl _)]
  exact Chars.startsWith_iff.mpr List.prefix_rfl

theorem caseLine_labelled (t : Table) (row : Row) :
    Labelled "    case " (t.qualifiedName ++ "::" ++ row.name) ": " (caseLine t row) := by
  have mark : ": return \"" = ": " ++ "return \"" := by decide
  have whole : caseLine t row =
      "    case " ++ t.qualify row ++ ": " ++ ("return \"" ++ escape row.label ++ "\";") := by
    rw [caseLine, mark]
    simp only [String.append_assoc]
  rw [whole]
  exact labelled_append _ _ _

theorem jsonLine_labelled (t : Table) (row : Row) :
    Labelled "  \x7b" (t.qualifiedName ++ "::" ++ row.name) ", " (jsonLine t row) := by
  have mark : ", \"" = ", " ++ "\"" := by decide
  have whole : jsonLine t row =
      "  \x7b" ++ t.qualify row ++ ", " ++ ("\"" ++ escape row.label ++ "\"\x7d,") := by
    rw [jsonLine, mark]
    simp only [String.append_assoc]
  rw [whole]
  exact labelled_append _ _ _

theorem fromStringLine_starts (t : Table) (row : Row) : startsWith "    case " (fromStringLine t row) = false := by
  unfold fromStringLine
  simp only [String.append_assoc]
  rw [startsWith_append (by decide)]
  decide

theorem jsonLine_starts (t : Table) (row : Row) : startsWith "  \x7b" (jsonLine t row) = true := by
  unfold jsonLine
  simp only [String.append_assoc]
  rw [startsWith_append (by decide)]
  decide

theorem caseLine_flat (flat : t.Flat) (member : row ∈ t.rows) : Text.Flat (caseLine t row) := by
  have label := flat_escape (flat.rows row member).2
  unfold caseLine
  rw [flat_append, flat_append, flat_append, flat_append]
  exact ⟨⟨⟨⟨by decide, flat.qualify member⟩, by decide⟩, label⟩, by decide⟩

theorem fromStringLine_flat (flat : t.Flat) (member : row ∈ t.rows) : Text.Flat (fromStringLine t row) := by
  have label := flat_escape (flat.rows row member).2
  unfold fromStringLine
  rw [flat_append, flat_append, flat_append, flat_append]
  exact ⟨⟨⟨⟨by decide, label⟩, by decide⟩, flat.qualify member⟩, by decide⟩

theorem jsonLine_flat (flat : t.Flat) (member : row ∈ t.rows) : Text.Flat (jsonLine t row) := by
  have label := flat_escape (flat.rows row member).2
  unfold jsonLine
  rw [flat_append, flat_append, flat_append, flat_append]
  exact ⟨⟨⟨⟨by decide, flat.qualify member⟩, by decide⟩, label⟩, by decide⟩

theorem shows_stringConversions (t : Table) :
    Shows t.Flat "    case " (stringConversions t) (t.distinct.map (caseLine t)) := by
  refine shows_wrap (by decide) (by decide) (fun flat => ?_) ?_
  · have labels : ∀ row ∈ t.distinct, Text.Flat (caseLine t row) :=
      fun row listed => caseLine_flat flat (List.mem_of_mem_filter listed)
    have tests : ∀ row ∈ t.rows, Text.Flat (fromStringLine t row) := fun row listed => fromStringLine_flat flat listed
    simp only [List.forall_mem_append, List.forall_mem_map, List.forall_mem_cons, flat_append, flat.qualifiedName,
      flat.localName, and_true]
    exact ⟨⟨⟨⟨by decide +kernel, labels⟩, by decide +kernel⟩, tests⟩, by decide +kernel⟩
  · rw [List.append_assoc, List.append_assoc]
    refine filter_between ?_ ?_ ?_
    · simp only [List.forall_mem_cons, String.append_assoc]
      rw [startsWith_append (by decide)]
      decide
    · exact List.forall_mem_map.mpr fun row _ => caseLine_starts t row
    · simp only [List.forall_mem_append, List.forall_mem_map, List.forall_mem_cons, String.append_assoc]
      rw [startsWith_append (by decide)]
      exact ⟨by decide +kernel, fun row _ => fromStringLine_starts t row, by decide⟩

theorem shows_jsonConversions (t : Table) :
    Shows t.Flat "  \x7b" (jsonConversions t) (t.distinct.map (jsonLine t)) := by
  refine shows_wrap (by decide) (by decide) (fun flat => ?_) ?_
  · have rows : ∀ row ∈ t.distinct, Text.Flat (jsonLine t row) :=
      fun row listed => jsonLine_flat flat (List.mem_of_mem_filter listed)
    have name := flat_escape flat.qualifiedName
    simp only [List.forall_mem_append, List.forall_mem_map, List.forall_mem_cons, flat_append, flat.qualifiedName,
      flat.localName, name, and_true]
    exact ⟨⟨by decide +kernel, rows⟩, by decide +kernel⟩
  · refine filter_between ?_ ?_ ?_
    · simp only [List.forall_mem_cons, String.append_assoc]
      rw [startsWith_append (by decide)]
      decide
    · exact List.forall_mem_map.mpr fun row _ => jsonLine_starts t row
    · simp only [List.forall_mem_cons, String.append_assoc]
      rw [startsWith_append (by decide), startsWith_append (by decide), startsWith_append (by decide),
        startsWith_append (by decide)]
      decide +kernel

end

/-- The rows of a table are the enumerators in order. A row is an alias exactly if the value of its enumerator is
the known one of an earlier enumerator, so each known value has one row that is none, for the first enumerator of
this value. The case labels and the rows for JSON are those of the rows that are no aliases, and each of them
names its enumerator. -/
theorem table_covers_values {d : Declaration} {lead : Option String} {t : Table} (accepted : table d lead = .ok t) :
    ∃ listed vs, enumerators d = .ok listed ∧ values listed = .ok vs ∧ vs.length = listed.length ∧
      t.rows.map (·.name) = listed.map (·.name) ∧
      (∀ (i : Nat) (row : Row), t.rows[i]? = some row → (row.isAlias = true ↔ Repeats vs i)) ∧
      (∀ v, some v ∈ vs → ∃ k, Introduces vs v k ∧
        ∀ (i : Nat) (row : Row), t.rows[i]? = some row → (row.isAlias = false ∧ vs[i]? = some (some v) ↔ i = k)) ∧
      (∀ (i : Nat) (row : Row), t.rows[i]? = some row → vs[i]? = some none → row.isAlias = false) ∧
      Shows t.Flat "    case " (stringConversions t) ((t.rows.filter (!·.isAlias)).map (caseLine t)) ∧
      Shows t.Flat "  \x7b" (jsonConversions t) ((t.rows.filter (!·.isAlias)).map (jsonLine t)) ∧
      ∀ row ∈ t.rows, Labelled "    case " (d.qualifiedName ++ "::" ++ row.name) ": " (caseLine t row) ∧
        Labelled "  \x7b" (d.qualifiedName ++ "::" ++ row.name) ", " (jsonLine t row) := by
  have cases := shows_stringConversions t
  have rows := shows_jsonConversions t
  have labels (row : Row) (_ : row ∈ t.rows) := And.intro (caseLine_labelled t row) (jsonLine_labelled t row)
  obtain ⟨listed, vs, here, run, rfl⟩ := table_ok_iff.mp accepted
  have length : vs.length = listed.length := (valuesFrom_at run).1
  refine ⟨listed, vs, here, run, length, names_rows length, fun i row found => (row_at found).2, ?_, ?_, cases, rows, labels⟩
  · intro v carried
    obtain ⟨k, new⟩ := exists_introduces carried
    refine ⟨k, new, fun i row found => ?_⟩
    rw [own_iff found]
    constructor
    · rintro ⟨own, carries⟩
      exact new.eq_of_not_repeats carries own
    · rintro rfl
      exact ⟨new.not_repeats, new.carries⟩
  · intro i row found unknown
    exact (own_iff found).mpr (not_repeats_of_unknown unknown)

/-- An enumeration with a value in two bases and one that is not known. -/
def twoBases : Declaration := declaring [⟨"A", some "0x2"⟩, ⟨"B", some "1 << 3"⟩, ⟨"C", some "2"⟩, ⟨"D", none⟩]

def twoBasesTable : Table :=
  ⟨"n::E", "E", ["n"], [⟨"A", "A", false⟩, ⟨"B", "B", false⟩, ⟨"C", "C", true⟩, ⟨"D", "D", false⟩]⟩

theorem table_covers_values_twoBases :
    table twoBases none = .ok twoBasesTable ∧
      ∃ listed vs, enumerators twoBases = .ok listed ∧ values listed = .ok vs ∧ vs.length = listed.length ∧
        twoBasesTable.rows.map (·.name) = listed.map (·.name) ∧
        (∀ (i : Nat) (row : Row), twoBasesTable.rows[i]? = some row → (row.isAlias = true ↔ Repeats vs i)) ∧
        (∀ v, some v ∈ vs → ∃ k, Introduces vs v k ∧
          ∀ (i : Nat) (row : Row), twoBasesTable.rows[i]? = some row →
            (row.isAlias = false ∧ vs[i]? = some (some v) ↔ i = k)) ∧
        (∀ (i : Nat) (row : Row), twoBasesTable.rows[i]? = some row → vs[i]? = some none → row.isAlias = false) ∧
        Shows twoBasesTable.Flat "    case " (stringConversions twoBasesTable)
          ((twoBasesTable.rows.filter (!·.isAlias)).map (caseLine twoBasesTable)) ∧
        Shows twoBasesTable.Flat "  \x7b" (jsonConversions twoBasesTable)
          ((twoBasesTable.rows.filter (!·.isAlias)).map (jsonLine twoBasesTable)) ∧
        ∀ row ∈ twoBasesTable.rows,
          Labelled "    case " (twoBases.qualifiedName ++ "::" ++ row.name) ": " (caseLine twoBasesTable row) ∧
            Labelled "  \x7b" (twoBases.qualifiedName ++ "::" ++ row.name) ", " (jsonLine twoBasesTable row) := by
  have accepted : table twoBases none = .ok twoBasesTable := by decide +kernel
  exact ⟨accepted, table_covers_values accepted⟩

end Enum

end MarkerGen
