import MarkerGen.Proofs.SourceTree.Namespaces

/-! Records looked up by name. In the unit of a source tree each record is found by its qualified name,
and by its short name if no other record has it; but a short name with `::` in its template arguments is
taken for a qualified one. -/
namespace MarkerGen

namespace QualifiedName
open Chars

theorem extend_segments {c : Char} {depth : Int} {text first : List Char} {others : List (List Char)}
    (split : segmentsFrom.extend c (segmentsFrom depth text) = first :: others) :
    ∃ piece, first = c :: piece ∧ segmentsFrom depth text = piece :: others := by
  obtain ⟨piece, pieces, inner⟩ := List.exists_cons_of_ne_nil (segmentsFrom_ne_nil depth text)
  rw [inner, segmentsFrom.extend] at split
  obtain ⟨rfl, rfl⟩ := List.cons.inj split
  exact ⟨piece, rfl, inner⟩

theorem prefix_of_segmentsFrom {depth : Int} {text first : List Char} {others : List (List Char)}
    (split : segmentsFrom depth text = first :: others) : first <+: text := by
  fun_induction segmentsFrom depth text generalizing first with
  | case1 => simp_all
  | case2 =>
    obtain ⟨rfl, _⟩ := List.cons.inj split
    exact List.nil_prefix
  | case3 _ _ _ ih | case4 _ _ ih | case5 _ _ ih | case6 _ _ _ _ _ _ ih =>
    obtain ⟨piece, rfl, inner⟩ := extend_segments split
    exact List.cons_prefix_cons.mpr ⟨rfl, ih inner⟩

/-- A segment has `::` in front only inside angle brackets. -/
theorem unled_of_segmentsFrom {depth : Int} {text first : List Char} {others : List (List Char)}
    (split : segmentsFrom depth text = first :: others) :
    (depth = 0 → ¬ [':', ':'] <+: trimLeft first) ∧ ∀ segment ∈ others, ¬ [':', ':'] <+: trimLeft segment := by
  fun_induction segmentsFrom depth text generalizing first others with
  | case1 =>
    obtain ⟨rfl, rfl⟩ := List.cons.inj split
    simp [trimLeft]
  | case2 _ ih =>
    obtain ⟨rfl, rfl⟩ := List.cons.inj split
    obtain ⟨next, more, inner⟩ := List.exists_cons_of_ne_nil (segmentsFrom_ne_nil 0 _)
    have below := ih inner
    rw [inner]
    exact ⟨by simp [trimLeft], List.forall_mem_cons.mpr ⟨below.1 rfl, below.2⟩⟩
  | case3 _ _ nested ih =>
    obtain ⟨piece, rfl, inner⟩ := extend_segments split
    exact ⟨fun outside => absurd outside nested, (ih inner).2⟩
  | case4 _ _ ih | case5 _ _ ih =>
    obtain ⟨piece, rfl, inner⟩ := extend_segments split
    exact ⟨fun _ => by simp [trimLeft, isBlank], (ih inner).2⟩
  | case6 _ c s divides _ _ ih =>
    obtain ⟨piece, rfl, inner⟩ := extend_segments split
    refine ⟨fun outside front => ?_, (ih inner).2⟩
    cases blank : isBlank c with
    | true => exact (ih inner).1 outside (by simpa [trimLeft, blank] using front)
    | false =>
      -- Two colons at the front of the segment are two colons at the front of the text.
      have front : [':', ':'] <+: c :: piece := by simpa [trimLeft, blank] using front
      obtain ⟨same, front⟩ := List.cons_prefix_cons.mp front
      obtain ⟨rest, colon⟩ := front.trans (prefix_of_segmentsFrom inner)
      exact divides rest same.symm colon.symm

/-- A segment of a name, without blanks at its ends and without `::` in front. -/
structure IsSegment (segment : String) : Prop where
  trimmed : Trimmed segment.toList
  unled : ¬ [':', ':'] <+: segment.toList

theorem isSegment_of_mem_segments {text segment : String} (member : segment ∈ segments text) : IsSegment segment := by
  obtain ⟨written, listed, rfl⟩ := List.mem_map.mp member
  obtain ⟨first, others, split⟩ := List.exists_cons_of_ne_nil (segmentsFrom_ne_nil 0 text.toList)
  have unled : ¬ [':', ':'] <+: trimLeft written := by
    obtain ⟨here, later⟩ := unled_of_segmentsFrom split
    rw [split] at listed
    rcases List.mem_cons.mp listed with rfl | behind
    · exact here rfl
    · exact later written behind
  constructor
  · simpa using trimmed_trim written
  · intro front
    have inside : trim written <+: trimLeft written := ⟨_, (trimRight_append (trimLeft written)).symm⟩
    exact unled (.trans (by simpa using front) inside)

theorem isSegment_of_mem_own {text segment : String} (member : segment ∈ own text) : IsSegment segment := by
  rcases List.mem_append.mp member with front | last
  · exact isSegment_of_mem_segments (List.dropLast_subset _ (List.mem_of_mem_filter front))
  · obtain rfl := List.mem_singleton.mp last
    cases found : (segments text).getLast? with
    | none => exact ⟨trimmed_nil, by simp⟩
    | some segment => exact isSegment_of_mem_segments (List.mem_of_getLast? found)

theorem trimmed_of_mem_namespaceSegments {text segment : String} (member : segment ∈ namespaceSegments text) :
    Trimmed segment.toList := by
  obtain ⟨trimmed, listed, rfl⟩ := List.mem_map.mp (List.mem_of_mem_filter member)
  obtain ⟨written, _, rfl⟩ := List.mem_map.mp listed
  simpa using trimmed_trim written

theorem trimmed_join {pieces : List String} (trimmed : ∀ piece ∈ pieces, Trimmed piece.toList) :
    Trimmed (Text.join "::" pieces).toList := by
  induction pieces with
  | nil => exact trimmed_nil
  | cons piece pieces ih =>
    obtain ⟨here, later⟩ := List.forall_mem_cons.mp trimmed
    cases pieces with
    | nil => exact here
    | cons next pieces =>
      have whole : (Text.join "::" (piece :: next :: pieces)).toList =
          piece.toList ++ ([':', ':'] ++ (Text.join "::" (next :: pieces)).toList) := by
        simp [Text.join]
      have behind : Trimmed ([':', ':'] ++ (Text.join "::" (next :: pieces)).toList) := by
        cases rest : (Text.join "::" (next :: pieces)).toList with
        | nil => exact trimmed_of_solid (by simp [isBlank])
        | cons c others => exact (rest ▸ ih later).append (List.cons_ne_nil c others) (by simp [isBlank])
      rw [whole]
      exact behind.append (by simp) here.first

theorem front_of_whole_join {front : List String} {name : String}
    (whole : Text.contains "::" (Text.join "::" (front ++ [name])) = false) : front = [] := by
  cases front with
  | nil => rfl
  | cons piece front =>
    obtain ⟨next, rest, split⟩ : ∃ next rest, front ++ [name] = next :: rest :=
      List.exists_cons_of_ne_nil (by simp)
    have divided : Text.contains "::" (Text.join "::" (piece :: next :: rest)) = true :=
      contains_iff.mpr ⟨piece.toList, (Text.join "::" (next :: rest)).toList, by simp [Text.join]⟩
    rw [List.cons_append, split, divided] at whole
    cases whole

end QualifiedName

theorem Text.trim_of_trimmed {text : String} (trimmed : Chars.Trimmed text.toList) : trim text = text := by
  rw [trim, Chars.trim_of_trimmed trimmed, String.ofList_toList]

open QualifiedName (IsSegment)

theorem Written.isSegment {r : Reading} {root : Node} {kind : Kind} {location : Location} {own : List String}
    (written : Written r root kind location own) (isRecord : kind.isRecord = true) : ∀ piece ∈ own, IsSegment piece := by
  cases written with
  | record => exact fun _ => QualifiedName.isSegment_of_mem_own
  | enumeration | field => cases isRecord
  | function _ _ _ _ callable => rcases callable with rfl | rfl <;> cases isRecord

/-- A record is named after the segments around it and its own. -/
def Composed (d : Declaration) : Prop :=
  d.kind.isRecord = true → ∃ own : List String, own.getLast? = some d.name ∧
    d.qualifiedName = Text.join "::" (d.namespaces ++ d.enclosingRecords ++ own) ∧
    ∀ piece ∈ d.enclosingRecords ++ own, IsSegment piece

theorem Entry.Fits.composed {r : Reading} {root : Node} {records : List String} {entry : Entry}
    (fits : entry.Fits r root records) (around : ∀ piece ∈ records, IsSegment piece) : entry.Every Composed := by
  induction fits with
  | inclusion inclusion => exact .inclusion inclusion
  | @declared records own head members written last enclosing qualified _ owner _ ih =>
    have segments (isRecord : head.kind.isRecord = true) : ∀ piece ∈ records ++ own, IsSegment piece :=
      List.forall_mem_append.mpr ⟨around, written.isSegment isRecord⟩
    refine .declared (fun isRecord => ⟨own, last, ?_, ?_⟩) fun member listed => ?_
    · exact enclosing ▸ qualified
    · exact enclosing ▸ segments isRecord
    · exact ih member listed (segments (owner (List.ne_nil_of_mem listed)))

theorem Outline.trimmed_of_mem_spaces {r : Reading} {n : Node} {space : String} (member : space ∈ spaces r n) :
    Chars.Trimmed space.toList := by
  unfold spaces at member
  split at member
  · cases member
  · exact QualifiedName.trimmed_of_mem_namespaceSegments member

namespace SourceUnit
open Chars

section
variable {u : SourceUnit} {name : String} {d : Declared}

theorem eq_of_id_eq {e : Declared} (member : d ∈ u.records) (other : e ∈ u.records) (same : d.id = e.id) : d = e := by
  have here := mem_entries (List.mem_of_mem_filter member)
  have there := mem_entries (List.mem_of_mem_filter other)
  rw [← same, here, Option.some.injEq] at there
  cases d
  cases e
  simp_all

theorem find?_records_iff {p : Declared → Bool} :
    u.records.find? p = some d ↔ d ∈ u.records ∧ p d = true ∧ ∀ e ∈ u.records, p e = true → d.id ≤ e.id := by
  have first {d : Declared} (found : u.records.find? p = some d) :
      d ∈ u.records ∧ p d = true ∧ ∀ e ∈ u.records, p e = true → d.id ≤ e.id := by
    refine ⟨List.mem_of_find?_eq_some found, List.find?_some found, fun e member own => ?_⟩
    obtain ⟨_, front, back, split, others⟩ := List.find?_eq_some_iff_append.mp found
    have increasing : u.records.Pairwise (·.id < ·.id) := u.entries_increasing.filter _
    rw [split] at member increasing
    rcases List.mem_append.mp member with before | rest
    · exact absurd own (by simpa using others e before)
    · rcases List.mem_cons.mp rest with rfl | after
      · exact Nat.le_refl _
      · exact Nat.le_of_lt (List.rel_of_pairwise_cons (List.pairwise_append.mp increasing).2.1 after)
  refine ⟨first, fun ⟨member, own, least⟩ => ?_⟩
  obtain ⟨e, found⟩ := Option.isSome_iff_exists.mp (List.find?_isSome.mpr ⟨d, member, own⟩)
  obtain ⟨listed, other, below⟩ := first found
  rw [found, eq_of_id_eq listed member (Nat.le_antisymm (below d member own) (least e listed other))]

theorem filter_records_eq_singleton {p : Declared → Bool} (member : d ∈ u.records) (own : p d = true)
    (only : ∀ e ∈ u.records, p e = true → e = d) : u.records.filter p = [d] := by
  have distinct : u.records.Nodup := u.entries_distinct.filter _
  refine List.perm_singleton.mp ((List.perm_ext_iff_of_nodup (distinct.filter p) (by simp)).mpr fun e => ?_)
  rw [List.mem_filter, List.mem_singleton]
  constructor
  · rintro ⟨listed, alike⟩
    exact only e listed alike
  · rintro rfl
    exact ⟨member, own⟩

/-- A name that is divided by `::` is looked up among the qualified names. -/
theorem findRecord?_divided (trimmed : Trimmed name.toList) (unled : ¬ [':', ':'] <+: name.toList)
    (divided : Text.contains "::" name = true) :
    u.findRecord? name = u.records.find? (·.decl.qualifiedName == name) := by
  have wanted : String.ofList (dropLeads [':', ':'] (trim name.toList)) = name := by
    rw [trim_of_trimmed trimmed, dropLeads_of_unled unled, String.ofList_toList]
  rw [findRecord?, wanted, if_pos divided]

theorem findRecord?_whole (whole : Text.contains "::" name = false) :
    u.findRecord? name = match u.records.filter (·.decl.name == Text.trim name) with
      | [only] => some only
      | candidates => candidates.find? (·.decl.qualifiedName == Text.trim name) := by
  have infix_ : trim name.toList <:+: name.toList := by
    obtain ⟨front, back, split, _⟩ := trim_parts name.toList
    exact ⟨front, back, by simpa using split.symm⟩
  have absent : ¬ [':', ':'] <:+: trim name.toList := fun inside => by
    have divided : Text.contains "::" name = true := contains_iff.mpr (inside.trans infix_)
    simp [divided] at whole
  have wanted : String.ofList (dropLeads [':', ':'] (trim name.toList)) = Text.trim name := by
    rw [dropLeads_of_unled fun front => absent front.isInfix, Text.trim]
  have still : ¬ Text.contains "::" (Text.trim name) = true := by
    simpa [Text.contains, contains_iff, Text.trim] using absent
  rw [findRecord?, wanted]
  exact if_neg still

theorem findRecord?_of_unique (whole : Text.contains "::" name = false) (trimmed : Trimmed name.toList)
    (member : d ∈ u.records) (own : d.decl.name = name) (only : ∀ e ∈ u.records, e.decl.name = name → e = d) :
    u.findRecord? name = some d := by
  have single : u.records.filter (·.decl.name == name) = [d] :=
    filter_records_eq_singleton member (by simpa using own) fun e listed alike => only e listed (by simpa using alike)
  rw [findRecord?_whole whole, Text.trim_of_trimmed trimmed, single]

/-- What a name without `::` finds has the name, and is the only such record unless it is its qualified name. -/
theorem findRecord?_whole_found (whole : Text.contains "::" name = false) (found : u.findRecord? name = some d) :
    d.decl.name = Text.trim name ∧
      ((∀ e ∈ u.records, e.decl.name = d.decl.name → e = d) ∨ d.decl.qualifiedName = Text.trim name) := by
  rw [findRecord?_whole whole] at found
  split at found
  next only single =>
    obtain rfl := Option.some.inj found
    have named (e : Declared) : e ∈ u.records ∧ e.decl.name = Text.trim name ↔ e = only := by
      rw [← @List.mem_singleton _ e only, ← single, List.mem_filter, beq_iff_eq]
    have own := ((named only).mpr rfl).2
    exact ⟨own, .inl fun e listed alike => (named e).mp ⟨listed, alike.trans own⟩⟩
  next =>
    have own := (List.mem_filter.mp (List.mem_of_find?_eq_some found)).2
    exact ⟨by simpa using own, .inr (by simpa using List.find?_some found)⟩

/-- A qualified name that has no `::` in front finds a record that has it. -/
theorem findRecord?_qualified (trimmed : Trimmed d.decl.qualifiedName.toList)
    (unled : ¬ [':', ':'] <+: d.decl.qualifiedName.toList)
    (short : Text.contains "::" d.decl.qualifiedName = false → d.decl.qualifiedName = d.decl.name)
    (member : d ∈ u.records) :
    ∃ e ∈ u.records, u.findRecord? d.decl.qualifiedName = some e ∧ e.decl.qualifiedName = d.decl.qualifiedName := by
  have first {listed : List Declared} (candidate : d ∈ listed) : ∃ e ∈ listed,
      listed.find? (·.decl.qualifiedName == d.decl.qualifiedName) = some e ∧
        e.decl.qualifiedName = d.decl.qualifiedName := by
    have some : (listed.find? (·.decl.qualifiedName == d.decl.qualifiedName)).isSome = true :=
      List.find?_isSome.mpr ⟨d, candidate, by simp⟩
    obtain ⟨e, found⟩ := Option.isSome_iff_exists.mp some
    exact ⟨e, List.mem_of_find?_eq_some found, found, by simpa using List.find?_some found⟩
  cases divided : Text.contains "::" d.decl.qualifiedName with
  | true =>
    rw [findRecord?_divided trimmed unled divided]
    exact first member
  | false =>
    have candidate : d ∈ u.records.filter (·.decl.name == d.decl.qualifiedName) :=
      List.mem_filter.mpr ⟨member, by simpa using (short divided).symm⟩
    rw [findRecord?_whole divided, Text.trim_of_trimmed trimmed]
    split
    next only single =>
      obtain rfl : d = only := List.mem_singleton.mp (single ▸ candidate)
      exact ⟨d, member, rfl, rfl⟩
    next =>
      obtain ⟨e, listed, found⟩ := first candidate
      exact ⟨e, List.mem_of_mem_filter listed, found⟩

end

/-- What the names of a record of a source tree are made of. -/
structure Spelled (d : Declaration) : Prop where
  segment : IsSegment d.name
  trimmed : Trimmed d.qualifiedName.toList
  short : Text.contains "::" d.qualifiedName = false → d.qualifiedName = d.name

theorem spelled_of_record {r : Reading} {present : Path → Bool} {root : Node} {d : Declared}
    (member : d ∈ (ofTree r present root).records) : Spelled d.decl := by
  have listed := mem_entries (List.mem_of_mem_filter member)
  have composed : Composed d.decl :=
    holds_ofTree (fun entry inside => (Outline.fits_outline r root entry inside).composed (by simp)) d.id d.decl listed
  have housed : Outline.Housed r root d.decl.bare := holds_ofTree (Outline.housed_outline r root) d.id d.decl listed
  obtain ⟨own, last, qualified, segments⟩ := composed (List.mem_filter.mp member).2
  obtain ⟨blocks, _, _, _, _, around, _⟩ := housed
  have spaces : ∀ space ∈ d.decl.namespaces, Trimmed space.toList := by
    intro space inside
    obtain ⟨block, _, added⟩ := List.mem_flatMap.mp (around ▸ inside)
    exact Outline.trimmed_of_mem_spaces added
  obtain ⟨front, rfl⟩ := List.getLast?_eq_some_iff.mp last
  refine ⟨segments d.decl.name (by simp), ?_, fun whole => ?_⟩
  · rw [qualified, List.append_assoc]
    refine QualifiedName.trimmed_join fun piece inside => ?_
    rcases List.mem_append.mp inside with space | segment
    · exact spaces piece space
    · exact (segments piece segment).trimmed
  · rw [qualified, ← List.append_assoc] at whole ⊢
    rw [QualifiedName.front_of_whole_join whole]
    rfl

/-- A record is found by its qualified name, if that does not start with `::`. If no other record has its short
name, it is found by that name exactly where the template arguments in it have no `::`, or where it is the
first with that name for its qualified one. What is found by a name without `::` is the only record of that
short name or has the name for its qualified one; blanks around the name do not count. -/
theorem findRecord?_names (r : Reading) (present : Path → Bool) (root : Node) :
    let u := ofTree r present root
    (∀ d ∈ u.records,
      (Text.startsWith "::" d.decl.qualifiedName = false → ∃ e ∈ u.records,
        u.findRecord? d.decl.qualifiedName = some e ∧ e.decl.qualifiedName = d.decl.qualifiedName) ∧
      ((∀ e ∈ u.records, e.decl.name = d.decl.name → e = d) →
        (u.findRecord? d.decl.name = some d ↔ Text.contains "::" d.decl.name = false ∨
          d.decl.qualifiedName = d.decl.name ∧
            ∀ e ∈ u.records, e.decl.qualifiedName = d.decl.name → d.id ≤ e.id))) ∧
    ∀ name found, Text.contains "::" name = false → u.findRecord? name = some found →
      found.decl.name = Text.trim name ∧
        ((∀ e ∈ u.records, e.decl.name = found.decl.name → e = found) ∨
          found.decl.qualifiedName = Text.trim name) := by
  intro u
  refine ⟨fun d member => ⟨fun unled => ?_, fun only => ?_⟩, fun name found => findRecord?_whole_found⟩
  · have spelled := spelled_of_record member
    have unled : ¬ [':', ':'] <+: d.decl.qualifiedName.toList := fun front => by
      have led : Text.startsWith "::" d.decl.qualifiedName = true := startsWith_iff.mpr front
      simp [led] at unled
    exact findRecord?_qualified spelled.trimmed unled spelled.short member
  · have spelled := spelled_of_record member
    cases divided : Text.contains "::" d.decl.name with
    | false => simp [findRecord?_of_unique divided spelled.segment.trimmed member rfl only]
    | true =>
      rw [findRecord?_divided spelled.segment.trimmed spelled.segment.unled divided, find?_records_iff]
      simp [member]

/-- A struct and a template specialization with a qualified name among its arguments. -/
def specialized : Reading :=
  ⟨"struct A \x7b \x7d;\ntemplate<> struct ns::Spec<a::B> \x7b \x7d;\n", ⟨"test.hpp"⟩, [], true⟩

def specializedArguments : Node :=
  node 20 "template_argument_list" "arguments" 40 46 [token 21 "<" 40,
    node 22 "type_descriptor" "" 41 45 [node 23 "qualified_identifier" "type" 41 45 [
      node 24 "namespace_identifier" "scope" 41 42 [], token 25 "::" 42, node 26 "type_identifier" "name" 44 45 []]],
    token 27 ">" 45]

def specializedRecord : Node :=
  node 13 "struct_specifier" "" 25 50 [token 14 "struct" 25,
    node 15 "qualified_identifier" "name" 32 46 [node 16 "namespace_identifier" "scope" 32 34 [], token 17 "::" 34,
      node 18 "template_type" "name" 36 46 [node 19 "type_identifier" "name" 36 40 [], specializedArguments]],
    node 28 "field_declaration_list" "body" 47 50 [token 29 "\x7b" 47, token 30 "\x7d" 49]]

def specializedTree : Node :=
  node 0 "translation_unit" "" 0 52 [
    node 1 "struct_specifier" "" 0 12 [token 2 "struct" 0, node 3 "type_identifier" "name" 7 8 [],
      node 4 "field_declaration_list" "body" 9 12 [token 5 "\x7b" 9, token 6 "\x7d" 11]],
    token 7 ";" 12,
    node 8 "template_declaration" "" 14 51 [token 9 "template" 14,
      node 10 "template_parameter_list" "parameters" 22 24 [token 11 "<" 22, token 12 ">" 23],
      specializedRecord, token 31 ";" 50]]

def declaredStruct (name qualifiedName : String) (line column : Nat) : Declaration where
  kind := .structType
  name
  qualifiedName
  namespaces := []
  enclosingRecords := []
  location := ⟨⟨"test.hpp"⟩, line, column⟩
  annotations := []
  templateParams := []
  access := .publicMember
  parent := none
  children := []
  detail := .record ⟨.structTag, []⟩

theorem records_specialized : (ofTree specialized (fun _ => false) specializedTree).records =
    [⟨0, declaredStruct "A" "A" 1 1⟩, ⟨1, declaredStruct "Spec<a::B>" "ns::Spec<a::B>" 2 12⟩] := by
  decide +kernel

theorem findRecord?_names_specialized :
    let u := ofTree specialized (fun _ => false) specializedTree
    let plain : Declared := ⟨0, declaredStruct "A" "A" 1 1⟩
    (∃ e ∈ u.records, u.findRecord? "ns::Spec<a::B>" = some e ∧ e.decl.qualifiedName = "ns::Spec<a::B>") ∧
      u.findRecord? "A" = some plain ∧ plain.decl.name = Text.trim "A" ∧
        ((∀ e ∈ u.records, e.decl.name = plain.decl.name → e = plain) ∨ plain.decl.qualifiedName = Text.trim "A") := by
  intro u plain
  have records : u.records = [plain, ⟨1, declaredStruct "Spec<a::B>" "ns::Spec<a::B>" 2 12⟩] := records_specialized
  obtain ⟨named, whole⟩ := findRecord?_names specialized (fun _ => false) specializedTree
  have only : ∀ e ∈ u.records, e.decl.name = plain.decl.name → e = plain := by
    simp [records, plain, declaredStruct]
  have found : u.findRecord? "A" = some plain :=
    ((named plain (by simp [records_specialized, plain])).2 only).mpr (.inl (by decide +kernel))
  have qualified := (named ⟨1, declaredStruct "Spec<a::B>" "ns::Spec<a::B>" 2 12⟩ (by simp [records_specialized])).1
  exact ⟨qualified (by decide +kernel), found, whole "A" plain (by decide +kernel) found⟩

/-- The specialization is not found by its short name, which no other record has. -/
theorem short_name_taken_for_qualified :
    let u := ofTree specialized (fun _ => false) specializedTree
    let d : Declared := ⟨1, declaredStruct "Spec<a::B>" "ns::Spec<a::B>" 2 12⟩
    d ∈ u.records ∧ (∀ e ∈ u.records, e.decl.name = d.decl.name → e = d) ∧ u.findRecord? d.decl.name = none := by
  intro u d
  have records : u.records = [⟨0, declaredStruct "A" "A" 1 1⟩, d] := records_specialized
  exact ⟨by simp [records], by simp [records, d, declaredStruct], by decide +kernel⟩

end SourceUnit

end MarkerGen
