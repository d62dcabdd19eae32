import MarkerGen.Marker
import MarkerGen.Proofs.Chars.Ascii
import MarkerGen.Proofs.Chars.Ends

/-! The grammar of markers, and that tokens are read by it: which of them are markers, which are
none, and what is wrong with the others. -/
namespace MarkerGen.Marker

open Chars

/-- The text of a string literal between its quotes. -/
inductive Literal : List Char → Prop
  | nil : Literal []
  | plain {c : Char} {s : List Char} (quote : c ≠ '"') (escape : c ≠ '\\') (rest : Literal s) : Literal (c :: s)
  | escaped (c : Char) {s : List Char} (rest : Literal s) : Literal ('\\' :: c :: s)

/-- What may stand between the parentheses of a marker. -/
inductive Body : List Char → Prop
  | nil : Body []
  | plain {c : Char} {s : List Char} (quote : c ≠ '"') (opening : c ≠ '(') (closing : c ≠ ')') (rest : Body s) :
      Body (c :: s)
  | quoted {t s : List Char} (literal : Literal t) (rest : Body s) : Body ('"' :: (t ++ '"' :: s))
  | nested {a b : List Char} (inside : Body a) (rest : Body b) : Body ('(' :: (a ++ ')' :: b))

theorem closeParen_literal {t : List Char} (literal : Literal t) (depth : Nat) (s : List Char) :
    closeParen .inside depth (t ++ '"' :: s) =
      (closeParen .outside depth s).map fun (body, rest) => (t ++ '"' :: body, rest) := by
  induction literal with
  | nil => simp [closeParen, closeParen.keep]
  | plain quote escape rest ih =>
    simp [closeParen, closeParen.keep, quote, escape, ih, Function.comp_def]
  | escaped c rest ih =>
    simp [closeParen, closeParen.keep, ih, Function.comp_def]

/-- A scan passes over a body at any depth. -/
theorem closeParen_body {b : List Char} (body : Body b) (depth : Nat) (s : List Char) :
    closeParen .outside depth (b ++ s) =
      (closeParen .outside depth s).map fun (body, rest) => (b ++ body, rest) := by
  induction body generalizing depth s with
  | nil => simp
  | plain quote opening closing rest ih =>
    simp [closeParen, closeParen.keep, quote, opening, closing, ih, Function.comp_def]
  | quoted literal rest ih =>
    simp [closeParen, closeParen.keep, closeParen_literal literal, ih, Function.comp_def]
  | nested inside rest first second =>
    simp [closeParen, closeParen.keep, first, second, Function.comp_def]

/-- The rest of a body after as many more opening parentheses than closing ones. -/
inductive Closing : Nat → List Char → Prop
  | last {b : List Char} (body : Body b) : Closing 0 b
  | next {depth : Nat} {b s : List Char} (body : Body b) (rest : Closing depth s) : Closing (depth + 1) (b ++ ')' :: s)

namespace Closing

variable {depth : Nat} {s : List Char}

theorem plain {c : Char} (quote : c ≠ '"') (opening : c ≠ '(') (closing : c ≠ ')') (rest : Closing depth s) :
    Closing depth (c :: s) := by
  cases rest with
  | last body => exact .last (.plain quote opening closing body)
  | next body rest => exact .next (.plain quote opening closing body) rest

theorem quoted {t : List Char} (literal : Literal t) (rest : Closing depth s) :
    Closing depth ('"' :: (t ++ '"' :: s)) := by
  cases rest with
  | last body => exact .last (.quoted literal body)
  | next body rest => simpa using Closing.next (.quoted literal body) rest

theorem opened (rest : Closing (depth + 1) s) : Closing depth ('(' :: s) := by
  cases rest with
  | next inside rest =>
    cases rest with
    | last body => exact .last (.nested inside body)
    | next body rest => simpa using Closing.next (.nested inside body) rest

end Closing

/-- The rest of a body at a position inside or outside of its literals. -/
def Resumes : Quoting → Nat → List Char → Prop
  | .outside, depth, s => Closing depth s
  | .inside, depth, s => ∃ t more, s = t ++ '"' :: more ∧ Literal t ∧ Closing depth more
  | .escaped, depth, s => ∃ c t more, s = c :: (t ++ '"' :: more) ∧ Literal t ∧ Closing depth more

theorem keep_eq_some {c : Char} {found : Option (List Char × List Char)} {body rest : List Char}
    (kept : closeParen.keep c found = some (body, rest)) : ∃ more, found = some (more, rest) ∧ body = c :: more := by
  obtain ⟨⟨more, _⟩, rfl, same⟩ := Option.map_eq_some_iff.mp kept
  obtain ⟨rfl, rfl⟩ := Prod.mk.inj same
  exact ⟨more, rfl, rfl⟩

theorem closeParen_resumes {quoting : Quoting} {depth : Nat} {s body rest : List Char}
    (found : closeParen quoting depth s = some (body, rest)) : s = body ++ ')' :: rest ∧ Resumes quoting depth body := by
  -- Along the scan; each character is given back to the part of the grammar that it belongs to.
  fun_induction closeParen quoting depth s generalizing body with
  | case1 => cases found
  | case2 depth c s ih =>
    obtain ⟨more, later, rfl⟩ := keep_eq_some found
    obtain ⟨rfl, t, last, rfl, literal, closing⟩ := ih later
    exact ⟨rfl, c, t, last, rfl, literal, closing⟩
  | case3 depth c s next =>
    rename_i ih
    obtain ⟨more, later, rfl⟩ := keep_eq_some found
    obtain ⟨rfl, resumed⟩ := ih later
    refine ⟨rfl, ?_⟩
    dsimp only [next] at resumed
    by_cases escape : c = '\\'
    · rw [if_pos escape] at resumed
      obtain ⟨d, t, last, rfl, literal, closing⟩ := resumed
      exact ⟨c :: d :: t, last, rfl, escape ▸ .escaped d literal, closing⟩
    · by_cases quote : c = '"'
      · rw [if_neg escape, if_pos quote] at resumed
        exact ⟨[], more, by rw [quote]; rfl, .nil, resumed⟩
      · rw [if_neg escape, if_neg quote] at resumed
        obtain ⟨t, last, rfl, literal, closing⟩ := resumed
        exact ⟨c :: t, last, rfl, .plain quote escape literal, closing⟩
  | case4 depth s ih =>
    obtain ⟨more, later, rfl⟩ := keep_eq_some found
    obtain ⟨rfl, t, last, rfl, literal, closing⟩ := ih later
    exact ⟨rfl, .quoted literal closing⟩
  | case5 depth s _ ih =>
    obtain ⟨more, later, rfl⟩ := keep_eq_some found
    obtain ⟨rfl, closing⟩ := ih later
    exact ⟨rfl, closing.opened⟩
  | case6 s =>
    obtain ⟨rfl, rfl⟩ := Prod.mk.inj (Option.some.inj found)
    exact ⟨rfl, .last .nil⟩
  | case7 s depth _ _ ih =>
    obtain ⟨more, later, rfl⟩ := keep_eq_some found
    obtain ⟨rfl, closing⟩ := ih later
    exact ⟨rfl, .next .nil closing⟩
  | case8 depth c s quote opening closing ih =>
    obtain ⟨more, later, rfl⟩ := keep_eq_some found
    obtain ⟨rfl, rest⟩ := ih later
    exact ⟨rfl, rest.plain quote opening closing⟩

theorem closeParen_eq_some_iff {s body rest : List Char} :
    closeParen .outside 0 s = some (body, rest) ↔ s = body ++ ')' :: rest ∧ Body body := by
  constructor
  · intro found
    obtain ⟨split, closing⟩ := closeParen_resumes found
    cases closing with
    | last inside => exact ⟨split, inside⟩
  · rintro ⟨rfl, inside⟩
    rw [closeParen_body inside]
    simp [closeParen]

theorem closeParen_eq_none_iff {s : List Char} :
    closeParen .outside 0 s = none ↔ ¬ ∃ body rest, s = body ++ ')' :: rest ∧ Body body := by
  rw [Option.eq_none_iff_forall_ne_some]
  simp only [ne_eq, Prod.forall, closeParen_eq_some_iff, not_exists]

/-- A character of a name as it stands in the tag. -/
def tagChar (c : Char) : Char := if c = '_' then '-' else c.toLower

/-- A name and the blanks between it and the opening parenthesis. -/
structure Heading (name before : List Char) : Prop where
  nonempty : name ≠ []
  named : ∀ c ∈ name, isNameChar c = true
  spaced : ∃ blanks, before = name ++ blanks ∧ Blank blanks

/-- How a token is read. -/
inductive Reads (lead token : String) : Except MarkerFault (Option Marker) → Prop
  | plain (absent : ¬ lead.toList <+: trim token.toList) : Reads lead token (.ok none)
  | missingArguments {r : List Char} (led : trim token.toList = lead.toList ++ r) (closed : '(' ∉ r) :
      Reads lead token (.error .missingArguments)
  | invalidName {r before after : List Char} (led : trim token.toList = lead.toList ++ r)
      (cut : trim r = before ++ '(' :: after) (first : '(' ∉ before) (unnamed : ∀ name, ¬ Heading name before) :
      Reads lead token (.error .invalidName)
  | unbalanced {r name before after : List Char} (led : trim token.toList = lead.toList ++ r)
      (cut : trim r = before ++ '(' :: after) (heading : Heading name before)
      (unclosed : ¬ ∃ body rest, after = body ++ ')' :: rest ∧ Body body) : Reads lead token (.error .unbalanced)
  | trailingInput {r name before body rest : List Char} (led : trim token.toList = lead.toList ++ r)
      (cut : trim r = before ++ '(' :: (body ++ ')' :: rest)) (heading : Heading name before) (inside : Body body)
      (more : ¬ Blank rest) : Reads lead token (.error .trailingInput)
  | marker {r name before body : List Char} (led : trim token.toList = lead.toList ++ r)
      (cut : trim r = before ++ '(' :: (body ++ [')'])) (heading : Heading name before) (inside : Body body) :
      Reads lead token (.ok (some ⟨⟨String.ofList (name.map tagChar)⟩, parseArguments body, token⟩))

theorem nameChar_ascii {c : Char} (named : isNameChar c = true) : c.toNat < 128 := by
  simp only [isNameChar, Bool.or_eq_true, beq_iff_eq, or_assoc] at named
  rcases named with plain | rfl | rfl
  · exact ascii_of_isAlphanum plain
  · decide
  · decide

theorem nameChar_solid {c : Char} (named : isNameChar c = true) : isBlank c = false ∧ c ≠ '(' := by
  have small := nameChar_ascii named
  revert named
  apply ascii_induction ?_ small
  decide

theorem lowerFrom_name {name : List Char} (named : ∀ c ∈ name, isNameChar c = true) (before : List Char) :
    (lowerFrom before name).map (fun c => if c = '_' then '-' else c) = name.map tagChar := by
  induction name generalizing before with
  | nil => rfl
  | cons c name ih =>
    obtain ⟨first, later⟩ := List.forall_mem_cons.mp named
    have small := nameChar_ascii first
    have ascii : lowerChar c = [c.toLower] := by simp [lowerChar, isAscii, small]
    have dashed : (if c.toLower = '_' then '-' else c.toLower) = tagChar c := by
      apply ascii_induction ?_ small
      decide
    have notSigma : (c.toNat == 0x3A3) = false := by simp; omega
    simp [lowerFrom, notSigma, ascii, ih later, dashed]

theorem ofText_name {name : List Char} (named : ∀ c ∈ name, isNameChar c = true) :
    Tag.ofText (String.ofList name) = ⟨String.ofList (name.map tagChar)⟩ := by
  have trimmed : Trimmed name := trimmed_of_solid fun c member => (nameChar_solid (named c member)).1
  rw [Tag.ofText, Tag.normalize, String.toList_ofList, trim_of_trimmed trimmed, lower, lowerFrom_name named]

theorem isName_iff {p : Char → Bool} {name : List Char} :
    isName p name = true ↔ name ≠ [] ∧ ∀ c ∈ name, p c = true := by
  simp [isName]

theorem Heading.trim_eq {name before : List Char} (heading : Heading name before) : trim before = name := by
  obtain ⟨blanks, rfl, blank⟩ := heading.spaced
  have trimmed : Trimmed name := trimmed_of_solid fun c member => (nameChar_solid (heading.named c member)).1
  exact @trim_of_blank [] name blanks (by simp [Blank]) trimmed blank

theorem Heading.free {name before : List Char} (heading : Heading name before) : '(' ∉ before := by
  obtain ⟨blanks, rfl, blank⟩ := heading.spaced
  simp only [List.mem_append, not_or]
  constructor
  · intro member
    exact (nameChar_solid (heading.named _ member)).2 rfl
  · intro member
    have spaced := blank _ member
    revert spaced
    decide

/-- Where no blank comes first, a name is all that trimming leaves. -/
theorem heading_of_isName {before after : List Char} (trimmed : Trimmed (before ++ '(' :: after))
    (named : isName isNameChar (trim before) = true) : Heading (trim before) before := by
  obtain ⟨nonempty, chars⟩ := isName_iff.mp named
  obtain ⟨front, back, split, blankFront, blankBack, _⟩ := trim_parts before
  cases front with
  | nil => exact ⟨nonempty, chars, back, split, blankBack⟩
  | cons c front =>
    have solid : isBlank c = false := by
      apply trimmed.first c
      rw [split]
      rfl
    rw [blankFront c List.mem_cons_self] at solid
    cases solid

theorem parse_heading {lead token : String} {r name before after : List Char}
    (led : trim token.toList = lead.toList ++ r) (cut : trim r = before ++ '(' :: after) (heading : Heading name before) :
    parse lead token = match closeParen .outside 0 after with
      | none => .error .unbalanced
      | some (body, rest) =>
        if rest.all isBlank then .ok (some ⟨⟨String.ofList (name.map tagChar)⟩, parseArguments body, token⟩)
        else .error .trailingInput := by
  have named : isName isNameChar name = true := isName_iff.mpr ⟨heading.nonempty, heading.named⟩
  rw [parse, afterLead?_eq_some_iff.mpr led]
  dsimp only
  rw [breakOn?_eq_some_iff.mpr ⟨cut, heading.free⟩]
  dsimp only
  cases closeParen .outside 0 after <;> simp [heading.trim_eq, named, ofText_name heading.named]

theorem reads_heading {lead token : String} {r name before after : List Char}
    (led : trim token.toList = lead.toList ++ r) (cut : trim r = before ++ '(' :: after) (heading : Heading name before) :
    Reads lead token (parse lead token) := by
  rw [parse_heading led cut heading]
  cases found : closeParen .outside 0 after with
  | none => exact .unbalanced led cut heading (closeParen_eq_none_iff.mp found)
  | some parts =>
    obtain ⟨body, rest⟩ := parts
    obtain ⟨rfl, inside⟩ := closeParen_eq_some_iff.mp found
    dsimp only
    split
    next blank =>
      -- Blanks cannot follow the closing parenthesis, since the text is trimmed.
      obtain ⟨_, _, _, _, _, trimmed⟩ := trim_parts r
      have whole : trim r = (before ++ '(' :: (body ++ [')'])) ++ rest := by simp [cut]
      have nothing := blank_of_trimmed (whole ▸ trimmed) (all_isBlank_iff.mp blank)
      subst nothing
      exact .marker led cut heading inside
    next more => exact .trailingInput led cut heading inside fun blank => more (all_isBlank_iff.mpr blank)

theorem reads_parse (lead token : String) : Reads lead token (parse lead token) := by
  cases led : afterLead? lead.toList (trim token.toList) with
  | none =>
    rw [parse, led]
    exact .plain (afterLead?_eq_none_iff.mp led)
  | some r =>
    have split := afterLead?_eq_some_iff.mp led
    cases found : breakOn? ['('] (trim r) with
    | none =>
      rw [parse, led]
      dsimp only
      rw [found]
      have closed : '(' ∉ r := by
        rw [← mem_trim_iff (by decide)]
        exact breakOn?_eq_none_iff.mp found
      exact .missingArguments split closed
    | some parts =>
      obtain ⟨before, after⟩ := parts
      obtain ⟨cut, first⟩ := breakOn?_eq_some_iff.mp found
      obtain ⟨_, _, _, _, _, trimmed⟩ := trim_parts r
      by_cases named : isName isNameChar (trim before) = true
      · exact reads_heading split cut (heading_of_isName (cut ▸ trimmed) named)
      · rw [parse, led]
        dsimp only
        rw [found]
        dsimp only
        rw [if_neg named]
        refine .invalidName split cut first fun name heading => named ?_
        rw [heading.trim_eq]
        exact isName_iff.mpr ⟨heading.nonempty, heading.named⟩

/-- A token is read in exactly one way, the one that the grammar gives. -/
theorem parse_eq_iff_reads (lead token : String) (outcome : Except MarkerFault (Option Marker)) :
    parse lead token = outcome ↔ Reads lead token outcome := by
  constructor
  · rintro rfl
    exact reads_parse lead token
  · intro reads
    cases reads with
    | plain absent => rw [parse, afterLead?_eq_none_iff.mpr absent]
    | missingArguments led closed =>
      have none := breakOn?_eq_none_iff.mpr fun member => closed ((mem_trim_iff (by decide) _).mp member)
      rw [parse, afterLead?_eq_some_iff.mpr led]
      dsimp only
      rw [none]
    | invalidName led cut first unnamed =>
      obtain ⟨_, _, _, _, _, trimmed⟩ := trim_parts _
      have invalid : ¬ isName isNameChar (trim _) = true := fun named =>
        unnamed _ (heading_of_isName (cut ▸ trimmed) named)
      rw [parse, afterLead?_eq_some_iff.mpr led]
      dsimp only
      rw [breakOn?_eq_some_iff.mpr ⟨cut, first⟩]
      dsimp only
      rw [if_neg invalid]
    | unbalanced led cut heading unclosed => rw [parse_heading led cut heading, closeParen_eq_none_iff.mpr unclosed]
    | trailingInput led cut heading inside more =>
      rw [parse_heading led cut heading, closeParen_eq_some_iff.mpr ⟨rfl, inside⟩]
      dsimp only
      rw [if_neg fun blank => more (all_isBlank_iff.mp blank)]
    | marker led cut heading inside =>
      rw [parse_heading led cut heading, closeParen_eq_some_iff.mpr ⟨rfl, inside⟩]
      rfl

end MarkerGen.Marker
