import Mathlib.Data.List.Basic
import MarkerGen.Enum.Generate

/-! The one way in which the capabilities for enumerations break down: an enumerator written as a
minus sign before a literal for the least word, which has no opposite among the words. -/
namespace MarkerGen.Enum

def leastWord : Int := -(Number.wordSize (wordBits - 1) : Int)

/-- Whether the initializer of an enumerator negates the least word. -/
def Overflows (e : Enumerator) : Prop :=
  ∃ text rest, e.value = some text ∧ Chars.trim text.toList = '-' :: rest ∧
    magnitude? (literalDigits (Chars.trim rest)) = some leastWord

theorem signedWord?_inRange {bits base : Nat} {digits : List Char} {v : Int}
    (read : Number.signedWord? bits base digits = some v) : Number.inSignedRange bits v = true :=
  (Option.filter_eq_some_iff.mp read).2

theorem magnitude?_inRange {digits : List Char} {v : Int} (read : magnitude? digits = some v) :
    Number.inSignedRange wordBits v = true := by
  unfold magnitude? at read
  split at read
  any_goals exact signedWord?_inRange read
  split at read <;> exact signedWord?_inRange read

theorem neg_inRange_iff {v : Int} (inside : Number.inSignedRange wordBits v = true) :
    Number.inSignedRange wordBits (-v) = true ↔ v ≠ leastWord := by
  simp only [Number.inSignedRange, Bool.and_eq_true, decide_eq_true_eq, leastWord] at inside ⊢
  omega

theorem literalValue_error_iff {text : List Char} {crash : Crash} :
    literalValue text = .error crash ↔ crash = .negationOverflow ∧
      ∃ rest, text = '-' :: rest ∧ magnitude? (literalDigits (Chars.trim rest)) = some leastWord := by
  unfold literalValue
  split
  next rest =>
    simp only [List.cons.injEq, true_and, exists_eq_left']
    cases read : magnitude? (literalDigits (Chars.trim rest)) with
    | none => simp
    | some v =>
      have range := neg_inRange_iff (magnitude?_inRange read)
      by_cases least : v = leastWord
      · subst least
        have outside : Number.inSignedRange wordBits (-leastWord) = false := by simpa using range
        simp only [outside, Bool.false_eq_true, if_false, and_true, Except.error.injEq]
        exact eq_comm
      · simp [range.mpr least, least]
  next unsigned =>
    simp only [reduceCtorEq, false_iff]
    rintro ⟨_, rest, rfl, _⟩
    exact unsigned rest rfl

theorem valueAfter_error_iff {known : Known} {e : Enumerator} {crash : Crash} :
    valueAfter known e = .error crash ↔ crash = .negationOverflow ∧ Overflows e := by
  unfold valueAfter Overflows
  cases e.value with
  | none => cases known <;> simp
  | some text =>
    simp only [Option.some.injEq, exists_and_left, exists_eq_left']
    rw [← literalValue_error_iff]
    cases literalValue (Chars.trim text.toList) with
    | error other => rfl
    | ok value => cases value <;> simp

/-- What was read before an enumerator has no part in whether its value overflows. -/
theorem valuesFrom_error_iff (known : Known) {enumerators : List Enumerator} {crash : Crash} :
    valuesFrom known enumerators = .error crash ↔ crash = .negationOverflow ∧ ∃ e ∈ enumerators, Overflows e := by
  induction enumerators generalizing known with
  | nil => simp [valuesFrom]
  | cons e rest ih =>
    rw [valuesFrom]
    cases step : valueAfter known e with
    | error other =>
      obtain ⟨rfl, overflow⟩ := valueAfter_error_iff.mp step
      simp [overflow, eq_comm]
    | ok value =>
      have fits : ¬ Overflows e := fun overflow => by
        rw [valueAfter_error_iff.mpr ⟨rfl, overflow⟩] at step
        cases step
      simp only [List.exists_mem_cons_iff, fits, false_or, ← ih ((e.name, value) :: known)]
      cases valuesFrom ((e.name, value) :: known) rest <;> simp [Except.map]

theorem table_crash_iff {d : Declaration} (lead : Option String) {crash : Crash} :
    table d lead = .error (.crash crash) ↔ crash = .negationOverflow ∧
      ∃ listed, enumerators d = .ok listed ∧ ∃ e ∈ listed, Overflows e := by
  unfold table
  cases enumerators d with
  | error error => simp
  | ok listed =>
    simp only [Except.ok.injEq, exists_eq_left', ← valuesFrom_error_iff []]
    rw [values]
    cases valuesFrom [] listed <;> simp

theorem checkArgument_ok_iff (tag : Tag) {arg : Argument} :
    checkArgument tag arg = .ok () ↔ arg.name = some leadArgument := by
  unfold checkArgument
  cases arg.name with
  | none => simp
  | some name =>
    simp only [Option.some.injEq]
    split <;> simp_all

theorem checkArguments_ok_iff (tag : Tag) {args : List Argument} :
    args.forM (checkArgument tag) = .ok () ↔ ∀ arg ∈ args, arg.name = some leadArgument := by
  induction args with
  | nil => simp [pure, Except.pure]
  | cons arg rest ih =>
    rw [List.forM_eq_forM, List.forM_cons, ← List.forM_eq_forM, List.forall_mem_cons, ← ih,
      ← checkArgument_ok_iff tag]
    cases checkArgument tag arg <;> simp [bind, Except.bind]

theorem generateWith_crash_iff {render : Table → String} {r : Request} {crash : Crash} :
    generateWith render r = .error (.crash crash) ↔ crash = .negationOverflow ∧
      (∀ arg ∈ r.marker.args, arg.name = some leadArgument) ∧
      ∃ listed, enumerators r.decl = .ok listed ∧ ∃ e ∈ listed, Overflows e := by
  rw [← checkArguments_ok_iff r.capability, and_left_comm,
    ← table_crash_iff (r.marker.arg? leadArgument)]
  unfold generateWith
  cases r.marker.args.forM (checkArgument r.capability) with
  | error error => simp [complaining, bind, Except.bind]
  | ok checked =>
    cases table r.decl (r.marker.arg? leadArgument) <;> simp [complaining, bind, Except.bind, pure, Except.pure]

end MarkerGen.Enum
