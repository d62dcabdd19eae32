import MarkerGen.Proofs.Marker.Division

/-! Reading back what was printed. A value between quotes passes every scan of a marker as it is,
whatever separators and brackets it has. -/
namespace MarkerGen.Marker

open Chars

/-- What a text is divided into from every position at the top of an argument list. -/
def Splits (sep : Char) (s : List Char) (pieces : List (List Char)) : Prop :=
  ∀ n : Nesting, n.isTop = true → splitNested true sep n s = some pieces

theorem splits_nil (sep : Char) : Splits sep [] [[]] := by
  intro n top
  obtain ⟨_, angles, _⟩ := isTop_iff.mp top
  simp [splitNested, angles]

section
variable {sep : Char} {s piece : List Char} {pieces : List (List Char)}

theorem Splits.plain {c : Char} (calm : Calm c) (inner : c ≠ sep) (rest : Splits sep s (piece :: pieces)) :
    Splits sep (c :: s) ((c :: piece) :: pieces) := by
  intro n top
  simp [splitNested, rest _ (step_calm calm top), inner]

theorem Splits.divided (calm : Calm sep) (rest : Splits sep s pieces) : Splits sep (sep :: s) ([] :: pieces) := by
  intro n top
  simp [splitNested, rest _ (step_calm calm top), top]

theorem Splits.word {word : List Char} (calm : ∀ c ∈ word, Calm c) (inner : sep ∉ word)
    (rest : Splits sep s (piece :: pieces)) : Splits sep (word ++ s) ((word ++ piece) :: pieces) := by
  induction word with
  | nil => exact rest
  | cons c word ih =>
    obtain ⟨first, later⟩ := List.forall_mem_cons.mp calm
    simp only [List.mem_cons, not_or] at inner
    exact (ih later inner.2).plain first (Ne.symm inner.1)

/-- Inside of a literal nothing divides. -/
theorem splitNested_quoted {v : List Char} (free : '"' ∉ v) (rest : Splits sep s (piece :: pieces)) {n : Nesting}
    (brackets : n.brackets = 0) (angles : n.angles = 0) (quoted : n.quoted = true) :
    splitNested true sep n (v ++ '"' :: s) = some ((v ++ '"' :: piece) :: pieces) := by
  have inside : n.isTop = false := by simp [Nesting.isTop, quoted]
  induction v generalizing n with
  | nil =>
    have top : (n.step true '"').isTop = true := by simp [Nesting.step, isTop_iff, brackets, angles, quoted]
    simp [splitNested, rest _ top, inside]
  | cons c v ih =>
    simp only [List.mem_cons, not_or] at free
    have stays : n.step true c = { n with afterDash := c == '-' } := by
      simp [Nesting.step, Ne.symm free.1, quoted]
    have later := @ih free.2 (n.step true c)
    rw [stays] at later
    simp [splitNested, stays, later brackets angles quoted inside, inside]

theorem Splits.literal {v : List Char} (free : '"' ∉ v) (outer : sep ≠ '"') (rest : Splits sep s (piece :: pieces)) :
    Splits sep ('"' :: (v ++ '"' :: s)) (('"' :: (v ++ '"' :: piece)) :: pieces) := by
  intro n top
  obtain ⟨brackets, angles, quoted⟩ := isTop_iff.mp top
  have later := @splitNested_quoted sep s piece pieces v free rest (n.step true '"')
    (by simp [Nesting.step, brackets]) (by simp [Nesting.step, angles]) (by simp [Nesting.step, quoted])
  simp [splitNested, later, Ne.symm outer]

theorem Splits.splitTop (split : Splits sep s pieces) : splitTop sep s = pieces := by
  rw [Marker.splitTop, split _ rfl]

end

/-- An argument that can be written down: no quote or backslash in its value, and a word as its name. -/
structure Printable (arg : Argument) : Prop where
  value : ∀ c ∈ arg.value.toList, c ≠ '"' ∧ c ≠ '\\'
  name : ∀ k ∈ arg.name, isName isWordChar k.toList = true

theorem printable_iff {arg : Argument} :
    Printable arg ↔ (arg.value.toList.all fun c => c != '"' && c != '\\') = true ∧
      (arg.name.all fun k => isName isWordChar k.toList) = true := by
  simp only [List.all_eq_true, Bool.and_eq_true, bne_iff_ne, Option.all_eq_true]
  exact ⟨fun printable => ⟨printable.value, printable.name⟩, fun ⟨value, name⟩ => ⟨value, name⟩⟩

instance (arg : Argument) : Decidable (Printable arg) := decidable_of_iff _ printable_iff.symm

theorem wordChar_calm {c : Char} (word : isWordChar c = true) : Calm c ∧ isBlank c = false ∧ c ≠ ',' ∧ c ≠ '=' := by
  have small := wordChar_ascii word
  revert word
  apply ascii_induction ?_ small
  simp only [Calm]
  decide

theorem body_append {a b : List Char} (first : Body a) (second : Body b) : Body (a ++ b) := by
  induction first with
  | nil => exact second
  | plain quote opening closing _ ih => exact .plain quote opening closing ih
  | quoted literal _ ih => simpa using Body.quoted literal ih
  | nested inside _ _ ih => simpa using Body.nested inside ih

theorem body_calm {s : List Char} (calm : ∀ c ∈ s, Calm c) : Body s := by
  induction s with
  | nil => exact .nil
  | cons c s ih =>
    obtain ⟨first, later⟩ := List.forall_mem_cons.mp calm
    simp only [Calm, List.mem_cons, List.not_mem_nil, or_false, not_or] at first
    exact .plain first.1 first.2.1 first.2.2.2.2.1 (ih later)

theorem literal_of_value {v : List Char} (plain : ∀ c ∈ v, c ≠ '"' ∧ c ≠ '\\') : Literal v := by
  induction v with
  | nil => exact .nil
  | cons c v ih =>
    obtain ⟨first, later⟩ := List.forall_mem_cons.mp plain
    exact .plain first.1 first.2 (ih later)

theorem unquote_literal (v : List Char) : unquote ('"' :: (v ++ ['"'])) = v := by
  simp [unquote, beforeTail?, afterLead?]

theorem trimmed_literal (v : List Char) : Trimmed ('"' :: (v ++ ['"'])) := trimmed_between (by decide) (by decide) v

theorem trim_space {s : List Char} (trimmed : Trimmed s) : trim (' ' :: s) = s := by
  simpa using @trim_of_blank [' '] s [] (by simp [Blank, isBlank]) trimmed (by simp [Blank])

/-- What stands before the value in a written argument. -/
def label : Option String → List Char
  | none => []
  | some name => name.toList ++ [' ', '=', ' ']

theorem printArgument_eq (arg : Argument) :
    printArgument arg = label arg.name ++ '"' :: (arg.value.toList ++ ['"']) := by
  unfold printArgument label
  cases arg.name <;> simp

section
variable {name : Option String} (word : ∀ k ∈ name, isName isWordChar k.toList = true)
include word

theorem label_calm : ∀ c ∈ label name, Calm c ∧ c ≠ ',' := by
  intro c member
  cases name with
  | none => cases member
  | some k =>
    rcases List.mem_append.mp member with inside | after
    · obtain ⟨calm, _, notComma, _⟩ := wordChar_calm ((isName_iff.mp (word k rfl)).2 c inside)
      exact ⟨calm, notComma⟩
    · simp only [List.mem_cons, List.not_mem_nil, or_false] at after
      rcases after with rfl | rfl | rfl <;> simp [Calm]

theorem head?_labelled (q : List Char) :
    ∃ c, (label name ++ '"' :: q).head? = some c ∧ isBlank c = false ∧ c ≠ ',' := by
  cases name with
  | none => exact ⟨'"', rfl, by decide, by decide⟩
  | some k =>
    obtain ⟨nonempty, chars⟩ := isName_iff.mp (word k rfl)
    obtain ⟨c, rest, split⟩ := List.exists_cons_of_ne_nil nonempty
    obtain ⟨_, solid, notComma, _⟩ := wordChar_calm (chars c (by simp [split]))
    exact ⟨c, by simp [label, split], solid, notComma⟩

theorem trimmed_labelled (q : List Char) : Trimmed (label name ++ '"' :: (q ++ ['"'])) := by
  refine (trimmed_literal q).append (by simp) fun c first => ?_
  obtain ⟨d, head, solid, _⟩ := head?_labelled word (q ++ ['"'])
  rw [List.head?_append, Option.mem_def.mp first, Option.some_or] at head
  exact Option.some.inj head ▸ solid

theorem body_labelled {q : List Char} (literal : Literal q) : Body (label name ++ '"' :: (q ++ ['"'])) :=
  body_append (body_calm fun c member => (label_calm word c member).1) (.quoted literal .nil)

end

/-- The name is read off in front of the first `=`, whatever the value is divided into. -/
theorem parseArgument_labelled {k : String} (word : isName isWordChar k.toList = true) (q : List Char) :
    parseArgument (label (some k) ++ '"' :: (q ++ ['"'])) = ⟨some k, String.ofList q⟩ := by
  obtain ⟨nonempty, chars⟩ := isName_iff.mp word
  have calm : ∀ c ∈ k.toList ++ [' '], Calm c ∧ c ≠ '=' := by
    intro c member
    rcases List.mem_append.mp member with inside | last
    · exact ⟨(wordChar_calm (chars c inside)).1, (wordChar_calm (chars c inside)).2.2.2⟩
    · rw [List.mem_singleton.mp last]
      simp [Calm]
  have whole : label (some k) ++ '"' :: (q ++ ['"']) = k.toList ++ [' '] ++ '=' :: (' ' :: '"' :: (q ++ ['"'])) := by
    simp [label]
  obtain ⟨piece, rest, split⟩ := splitTop_calm calm (' ' :: '"' :: (q ++ ['"']))
  have trimmedName : Trimmed k.toList := trimmed_of_solid fun c member => (wordChar_calm (chars c member)).2.1
  have head : trim (k.toList ++ [' ']) = k.toList :=
    @trim_of_blank [] _ [' '] (by simp [Blank]) trimmedName (by simp [Blank, isBlank])
  rw [whole, parseArgument, split]
  dsimp only
  rw [head, if_pos word, ← List.drop_drop, List.drop_left]
  simp [trim_space (trimmed_literal q), unquote_literal]

namespace Printable

variable {arg : Argument} (printable : Printable arg)
include printable

theorem free : '"' ∉ arg.value.toList := fun member => (printable.value _ member).1 rfl

theorem body : Body (printArgument arg) := by
  rw [printArgument_eq]
  exact body_labelled printable.name (literal_of_value printable.value)

theorem splits {s piece : List Char} {pieces : List (List Char)} (rest : Splits ',' s (piece :: pieces)) :
    Splits ',' (printArgument arg ++ s) ((printArgument arg ++ piece) :: pieces) := by
  have calm := label_calm printable.name
  have labelled := (rest.literal printable.free (by decide)).word (fun c member => (calm c member).1)
    (fun member => (calm _ member).2 rfl)
  rw [printArgument_eq]
  simpa using labelled

theorem trimmed : Trimmed (printArgument arg) := by
  rw [printArgument_eq]
  exact trimmed_labelled printable.name _

theorem parseArgument_print : parseArgument (printArgument arg) = arg := by
  have literal := (splits_nil '=').literal printable.free (by decide)
  rw [printArgument_eq]
  obtain ⟨name, value⟩ := arg
  cases name with
  | none =>
    rw [label, List.nil_append, parseArgument, literal.splitTop]
    simp [unquote_literal]
  | some name =>
    rw [parseArgument_labelled (printable.name name rfl)]
    simp

end Printable

theorem splits_arguments (arg : Argument) (args : List Argument) (printable : ∀ a ∈ arg :: args, Printable a) :
    Splits ',' ([',', ' '].intercalate ((arg :: args).map printArgument))
      (printArgument arg :: args.map fun a => ' ' :: printArgument a) := by
  induction args generalizing arg with
  | nil => simpa using (printable arg (by simp)).splits (splits_nil ',')
  | cons next args ih =>
    have later := ih next fun a member => printable a (List.mem_cons_of_mem _ member)
    have spaced := (later.plain (c := ' ') (by simp [Calm]) (by decide)).divided (by simp [Calm])
    simpa using (printable arg (by simp)).splits spaced

theorem parseArguments_print {args : List Argument} (printable : ∀ a ∈ args, Printable a) :
    parseArguments ([',', ' '].intercalate (args.map printArgument)) = args := by
  cases args with
  | nil => simp [parseArguments, (splits_nil ',').splitTop, trim_of_trimmed trimmed_nil]
  | cons arg args =>
    obtain ⟨first, later⟩ := List.forall_mem_cons.mp printable
    have trims : (printArgument arg :: args.map fun a => ' ' :: printArgument a).map trim =
        (arg :: args).map printArgument := by
      simp only [List.map_cons, List.map_map, trim_of_trimmed first.trimmed]
      congr 1
      exact List.map_congr_left fun a member => trim_space (later a member).trimmed
    have full : ∀ item ∈ (arg :: args).map printArgument, (!item.isEmpty) = true := by
      simp [printArgument_eq]
    have back : ∀ a ∈ arg :: args, parseArgument (printArgument a) = a := fun a member =>
      (printable a member).parseArgument_print
    rw [parseArguments, (splits_arguments arg args printable).splitTop, trims, List.filter_eq_self.mpr full, List.map_map]
    exact (List.map_congr_left back).trans (List.map_id' _)

theorem body_arguments {args : List Argument} (printable : ∀ a ∈ args, Printable a) :
    Body ([',', ' '].intercalate (args.map printArgument)) := by
  induction args with
  | nil => exact .nil
  | cons arg args ih =>
    obtain ⟨first, later⟩ := List.forall_mem_cons.mp printable
    cases args with
    | nil => simpa using first.body
    | cons next args =>
      have comma : Body [',', ' '] := body_calm (by simp [Calm])
      simpa using body_append first.body (body_append comma (ih later))

theorem print_eq_append (lead name : List Char) (args : List Argument) :
    print lead name args = lead ++ print [] name args := by
  simp [print]

theorem trimmed_print {lead name : List Char} (args : List Argument) (led : ∀ c ∈ lead.head?, isBlank c = false)
    (named : isName isNameChar name = true) : Trimmed (print lead name args) := by
  obtain ⟨nonempty, chars⟩ := isName_iff.mp named
  have solid : ∀ c ∈ name.head?, isBlank c = false := by
    intro c first
    exact (nameChar_solid (chars c (List.mem_of_mem_head? first))).1
  have rest := (trimmed_between (a := '(') (b := ')') (by decide) (by decide)
    ([',', ' '].intercalate (args.map printArgument))).append (by simp) solid
  simpa [print] using rest.append (by simp [nonempty]) led

/-- A printed marker is accepted if its argument list is balanced, and the list is read from there. -/
theorem parse_of_body {lead token : String} {name : List Char} {args : List Argument}
    (printed : trim token.toList = print lead.toList name args) (named : isName isNameChar name = true)
    (body : Body ([',', ' '].intercalate (args.map printArgument))) :
    parse lead token = .ok (some ⟨⟨String.ofList (name.map tagChar)⟩,
      parseArguments ([',', ' '].intercalate (args.map printArgument)), token⟩) := by
  obtain ⟨nonempty, chars⟩ := isName_iff.mp named
  have heading : Heading name name := ⟨nonempty, chars, [], by simp, by simp [Blank]⟩
  have cut : trim (print [] name args) = name ++ '(' :: ([',', ' '].intercalate (args.map printArgument) ++ [')']) := by
    rw [trim_of_trimmed (trimmed_print args (by simp) named)]
    simp [print]
  rw [parse_heading (printed.trans (print_eq_append _ _ _)) cut heading, closeParen_eq_some_iff.mpr ⟨rfl, body⟩]
  rfl

/-- A token is read as the marker that it spells, blanks around it left aside. -/
theorem parse_of_trim_eq_print {lead token : String} {name : List Char} {args : List Argument}
    (printed : trim token.toList = print lead.toList name args) (named : isName isNameChar name = true)
    (printable : ∀ arg ∈ args, Printable arg) :
    parse lead token = .ok (some ⟨⟨String.ofList (name.map tagChar)⟩, args, token⟩) := by
  rw [parse_of_body printed named (body_arguments printable), parseArguments_print printable]

theorem trim_print {lead name : List Char} (args : List Argument) (led : ∀ c ∈ lead.head?, isBlank c = false)
    (named : isName isNameChar name = true) :
    trim (String.ofList (print lead name args)).toList = print lead name args := by
  rw [String.toList_ofList, trim_of_trimmed (trimmed_print args led named)]

/-- A printed marker is read back as it was. -/
theorem parse_print (lead : String) (name : List Char) (args : List Argument)
    (led : ∀ c ∈ lead.toList.head?, isBlank c = false) (named : isName isNameChar name = true)
    (printable : ∀ arg ∈ args, Printable arg) :
    parse lead (String.ofList (print lead.toList name args)) =
      .ok (some ⟨⟨String.ofList (name.map tagChar)⟩, args, String.ofList (print lead.toList name args)⟩) :=
  parse_of_trim_eq_print (trim_print args led named) named printable

theorem parse_print_separators :
    parse "@ " "@ Make_Map(type = \"std::map<int, (a]\", \" k = -> [x\")" =
      .ok (some ⟨⟨"make-map"⟩, [⟨some "type", "std::map<int, (a]"⟩, ⟨none, " k = -> [x"⟩],
        "@ Make_Map(type = \"std::map<int, (a]\", \" k = -> [x\")"⟩) := by
  let args : List Argument := [⟨some "type", "std::map<int, (a]"⟩, ⟨none, " k = -> [x"⟩]
  have printable : ∀ arg ∈ args, Printable arg := by decide +kernel
  have written : String.ofList (print "@ ".toList "Make_Map".toList args) =
      "@ Make_Map(type = \"std::map<int, (a]\", \" k = -> [x\")" := by decide +kernel
  have tag : String.ofList ("Make_Map".toList.map tagChar) = "make-map" := by decide +kernel
  have led : ∀ c ∈ "@ ".toList.head?, isBlank c = false := by simp [isBlank]
  have back := parse_print "@ " "Make_Map".toList args led (by decide +kernel) printable
  rwa [written, tag] at back

end MarkerGen.Marker
