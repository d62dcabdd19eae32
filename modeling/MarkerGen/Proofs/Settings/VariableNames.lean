import MarkerGen.Proofs.Chars.Ascii
import MarkerGen.Proofs.Chars.Ends
import MarkerGen.Proofs.Chars.Split
import MarkerGen.Settings.Environment

/-! Which variable is read as which setting. Each setting whose names are of letters and digits has a variable: an
underscore comes only before a capital, so two of them are always the end of a name. Letter case is lost in
variables, and nothing depends on it. -/
namespace MarkerGen.Environment
open Chars

/-- A name in upper snake case: an underscore before each capital, and all letters as capitals. -/
def snakeCase : List Char → List Char
  | [] => []
  | c :: rest => if c.isUpper then '_' :: c :: snakeCase rest else c.toUpper :: snakeCase rest

/-- What follows the lead in the name of the variable for the setting at a path. -/
def keyOf (path : List (List Char)) : List Char := ['_', '_'].intercalate (path.map snakeCase)

/-- Letters and digits of ASCII only, as in a name in camel case. -/
def Plain (name : List Char) : Prop := ∀ c ∈ name, c.isAlphanum = true

instance (name : List Char) : Decidable (Plain name) := decidable_of_iff (name.all Char.isAlphanum = true) List.all_eq_true

section
variable {c : Char} (plain : c.isAlphanum = true)
include plain

theorem ne_underscore_of_alphanum : c ≠ '_' ∧ c.toUpper ≠ '_' := by
  have small := ascii_of_isAlphanum plain
  revert plain
  apply ascii_induction ?_ small
  decide

theorem upperChar_of_capital (capital : c.isUpper = true) : upperChar c = [c] := by
  have small := ascii_of_isAlphanum plain
  revert plain capital
  apply ascii_induction ?_ small
  decide +kernel

theorem lowerChar_toUpper (other : c.isUpper = false) : lowerChar c.toUpper = [c] := by
  have small := ascii_of_isAlphanum plain
  revert plain other
  apply ascii_induction ?_ small
  decide +kernel

end

variable {name : List Char} {path : List (List Char)}

theorem unpaired_snakeCase (plain : Plain name) : Unpaired '_' '_' (snakeCase name) := by
  induction name with
  | nil => exact .singleton '_'
  | cons c name ih =>
    obtain ⟨first, later⟩ := List.forall_mem_cons.mp plain
    obtain ⟨solid, raised⟩ := ne_underscore_of_alphanum first
    rw [snakeCase]
    split
    · refine unpaired_cons.mpr ⟨?_, unpaired_cons.mpr ⟨fun _ _ pair => solid pair.1, ih later⟩⟩
      rintro d ⟨rfl⟩ pair
      exact solid pair.2
    · exact unpaired_cons.mpr ⟨fun _ _ pair => raised pair.1, ih later⟩

theorem camelCase_snakeCase (plain : Plain name) : camelCase false (snakeCase name) = name := by
  induction name with
  | nil => rfl
  | cons c name ih =>
    obtain ⟨first, later⟩ := List.forall_mem_cons.mp plain
    obtain ⟨solid, raised⟩ := ne_underscore_of_alphanum first
    rw [snakeCase]
    split
    next capital => simp [camelCase, solid, upperChar_of_capital first capital, ih later]
    next other => simp [camelCase, raised, lowerChar_toUpper first (by simpa using other), ih later]

theorem keyPath_keyOf (plain : ∀ name ∈ path, Plain name) : keyPath (keyOf path) = ['.'].intercalate path := by
  cases path with
  | nil => rfl
  | cons name path =>
    have unpaired : ∀ piece ∈ (name :: path).map snakeCase, Unpaired '_' '_' piece :=
      List.forall_mem_map.mpr fun name member => unpaired_snakeCase (plain name member)
    rw [keyPath, keyOf, splitPair_intercalate (by simp) unpaired, List.map_map]
    congr 1
    conv_rhs => rw [← List.map_id (name :: path)]
    exact List.map_congr_left fun name member => camelCase_snakeCase (plain name member)

theorem camelCase_map_toLower (capital : Bool) (s : List Char) :
    camelCase capital (s.map Char.toLower) = camelCase capital s := by
  induction s generalizing capital with
  | nil => rfl
  | cons c s ih => simp [camelCase, toLower_eq_underscore, upperChar_toLower, lowerChar_toLower, ih]

/-- The letter case of a variable's name does not matter. -/
theorem keyPath_map_toLower (key : List Char) : keyPath (key.map Char.toLower) = keyPath key := by
  have pieces := splitPair_map (fun _ => toLower_eq_underscore) (fun _ => toLower_eq_underscore) key
  rw [keyPath, keyPath, pieces, List.map_map]
  congr 2
  funext piece
  exact camelCase_map_toLower false piece

theorem wordChar_of_mem_snakeCase (plain : Plain name) : ∀ c ∈ snakeCase name, isWordChar c = true := by
  induction name with
  | nil => simp [snakeCase]
  | cons c name ih =>
    obtain ⟨first, later⟩ := List.forall_mem_cons.mp plain
    have word : isWordChar c = true := by simp [isWordChar, first]
    rw [snakeCase]
    split
    · simpa [word, show isWordChar '_' = true from rfl] using ih later
    · simpa [wordChar_toUpper word] using ih later

theorem wordChar_of_mem_keyOf (plain : ∀ name ∈ path, Plain name) : ∀ c ∈ keyOf path, isWordChar c = true :=
  forall_mem_intercalate (List.all_eq_true.mp rfl) <| List.forall_mem_map.mpr fun name member =>
    wordChar_of_mem_snakeCase (plain name member)

theorem lead_word : ∀ c ∈ lead.toList, isWordChar c = true := List.all_eq_true.mp (by decide)

/-- What follows the lead is found again, whatever letter case the variable is written in. -/
theorem key?_of_spelled {spelling : String} {key : List Char} (word : ∀ c ∈ key, isWordChar c = true)
    (spelled : spelling.toList.map Char.toLower = (lead.toList ++ key).map Char.toLower) :
    ∃ written, key? spelling = some written ∧ written.map Char.toLower = key.map Char.toLower := by
  have solid : ∀ c ∈ spelling.toList, isBlank c = false := by
    intro c member
    have lowered : c.toLower ∈ (lead.toList ++ key).map Char.toLower := spelled ▸ List.mem_map_of_mem member
    obtain ⟨d, inside, same⟩ := List.mem_map.mp lowered
    apply wordChar_solid
    rw [← wordChar_toLower, ← same, wordChar_toLower]
    exact List.forall_mem_append.mpr ⟨lead_word, word⟩ d inside
  have leads : (spelling.toList.take lead.length).map Char.toLower = lead.toList := by
    rw [List.map_take, spelled, List.map_append]
    exact List.take_left' rfl
  refine ⟨spelling.toList.drop lead.length, ?_, ?_⟩
  · rw [key?, trim_of_trimmed (trimmed_of_solid solid), if_pos leads]
  · rw [List.map_drop, spelled, List.map_append]
    exact List.drop_left' rfl

/-- A path written with dots is read as the path. -/
theorem splitAt_dotted (plain : ∀ name ∈ path, Plain name) (nonempty : path ≠ []) :
    splitAt (· == '.') (trim (['.'].intercalate path)) = path := by
  have solid : ∀ c ∈ ['.'].intercalate path, isBlank c = false := by
    refine forall_mem_intercalate (List.forall_mem_singleton.mpr rfl) fun name member c inside => wordChar_solid ?_
    simp [isWordChar, plain name member c inside]
  have undivided : ∀ name ∈ path, ∀ c ∈ name, (c == '.') = false := by
    intro name member c inside
    have alphanum := plain name member c inside
    rw [beq_eq_false_iff_ne]
    rintro rfl
    cases alphanum
  rw [trim_of_trimmed (trimmed_of_solid solid), splitAt_intercalate (by rfl) nonempty undivided]

/-- The variable that is named for a path is read as the setting at this path, in small letters too and, with
its lead, in any mixture of capitals and small letters. That a name begins with a small letter is not asked for. -/
theorem keyOf_reaches (nonempty : path ≠ []) (plain : ∀ name ∈ path, Plain name) :
    keyPath (keyOf path) = ['.'].intercalate path ∧
    keyPath ((keyOf path).map Char.toLower) = ['.'].intercalate path ∧
    ∀ spelling value, spelling.toList.map Char.toLower = (lead.toList ++ keyOf path).map Char.toLower →
      setting? (spelling, value) = some ((parse value).nest (path.map String.ofList)) := by
  have reached := keyPath_keyOf plain
  refine ⟨reached, by rw [keyPath_map_toLower, reached], fun spelling value spelled => ?_⟩
  obtain ⟨written, key, same⟩ := key?_of_spelled (wordChar_of_mem_keyOf plain) spelled
  have dotted : keyPath written = ['.'].intercalate path := by
    rw [← keyPath_map_toLower, same, keyPath_map_toLower, reached]
  rw [setting?, key, Option.map_some, dotted, splitAt_dotted plain nonempty]

theorem keyOf_reaches_capitals :
    let path := ["runtime".toList, "fileTimeoutMS2".toList]
    path ≠ [] ∧ (∀ name ∈ path, Plain name) ∧
      keyPath "RUNTIME__FILE_TIMEOUT_M_S2".toList = "runtime.fileTimeoutMS2".toList ∧
      keyPath "runtime__file_timeout_m_s2".toList = "runtime.fileTimeoutMS2".toList ∧
      setting? ("FlexTool__Runtime__file_timeout_M_s2", "250") =
        some ((parse "250").nest ["runtime", "fileTimeoutMS2"]) := by
  intro path
  have nonempty : path ≠ [] := by decide
  have plain : ∀ name ∈ path, Plain name := by decide +kernel
  have key : keyOf path = "RUNTIME__FILE_TIMEOUT_M_S2".toList := by decide +kernel
  have reached := keyOf_reaches nonempty plain
  rw [key] at reached
  obtain ⟨upper, lower, setting⟩ := reached
  exact ⟨nonempty, plain, upper, lower, setting _ _ (by decide +kernel)⟩

end MarkerGen.Environment
