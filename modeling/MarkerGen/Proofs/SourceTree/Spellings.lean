import MarkerGen.Proofs.Chars.Split
import MarkerGen.Proofs.Marker.RoundTrip
import MarkerGen.SourceTree.AnnotationTokens
import MarkerGen.Text.Literal

/-! The ways to write a marker down. In a comment of any kind, and as string literals in an attribute,
it is one token, and everywhere the same one. -/
namespace MarkerGen.AnnotationTokens

open Chars
open Text (escapeChars)

/-- Adjacent string literals that spell out pieces of a text, each with the blanks after it. -/
def literals (pieces : List (List Char × List Char)) : List Char :=
  pieces.flatMap fun (piece, gap) => '"' :: (escapeChars piece ++ '"' :: gap)

/-- Ways to write a token down. -/
inductive Spelling where
  | line
  | outerDoc
  | innerDoc
  | block
  | docBlock
  | gnu
  | clang
  deriving DecidableEq, Repr

namespace Spelling

/-- A token in a source, written as a text in a comment and as string literals in an attribute. -/
def write (text literals : String) : Spelling → String
  | line => "// " ++ text
  | outerDoc => "/// " ++ text
  | innerDoc => "//! " ++ text
  | block => "/* " ++ text ++ " */"
  | docBlock => "/** " ++ text ++ " */"
  | gnu => "__attribute__((annotate(" ++ literals ++ ")))"
  | clang => "[[clang::annotate(" ++ literals ++ ")]]"

/-- The tokens of what is written. -/
def tokens (written : String) : Spelling → List String
  | gnu | clang => attributeTokens written
  | _ => (commentToken? written).toList

end Spelling

theorem literals_cons (piece gap : List Char) (pieces : List (List Char × List Char)) (rest : List Char) :
    literals ((piece, gap) :: pieces) ++ rest =
      '"' :: (escapeChars piece ++ '"' :: (gap ++ (literals pieces ++ rest))) := by
  simp [literals]

/-- The ways to write a text inside a string literal. Quotes and backslashes have a backslash in front; line breaks
and tabs stand as they are or as a letter behind a backslash. -/
inductive Encodes : (text written : List Char) → Prop where
  | nil : Encodes [] []
  | char (c : Char) {text written : List Char} (rest : Encodes text written) :
      Encodes (c :: text) (escapeChars [c] ++ written)
  | lineBreak {text written : List Char} (rest : Encodes text written) :
      Encodes ('\n' :: text) ('\\' :: 'n' :: written)
  | tab {text written : List Char} (rest : Encodes text written) : Encodes ('\t' :: text) ('\\' :: 't' :: written)

theorem encodes_escapeChars (text : List Char) : Encodes text (escapeChars text) := by
  induction text with
  | nil => exact .nil
  | cons c text ih =>
    have first := Encodes.char c ih
    rw [escapeChars] at first ⊢
    split at first <;> simpa [escapeChars, *] using first

theorem leadingLiterals_encodes {text written : List Char} (encodes : Encodes text written) (rest : List Char) :
    leadingLiterals .inside (written ++ '"' :: rest) = (leadingLiterals (.between true) rest).map (text ++ ·) := by
  induction encodes with
  | nil => simp [leadingLiterals]
  | char c _ ih =>
    rw [escapeChars]
    split
    next special =>
      have kept : unescape c = c := by rcases special with rfl | rfl <;> rfl
      simp [escapeChars, leadingLiterals, ih, kept, Function.comp_def]
    next plain =>
      simp only [not_or] at plain
      simp [escapeChars, leadingLiterals, ih, plain, Function.comp_def]
  | lineBreak _ ih | tab _ ih => simp [leadingLiterals, unescape, ih, Function.comp_def]

theorem leadingLiterals_blank {gap : List Char} (blank : Blank gap) (seen : Bool) (rest : List Char) :
    leadingLiterals (.between seen) (gap ++ rest) = leadingLiterals (.between seen) rest := by
  induction gap with
  | nil => rfl
  | cons c gap ih =>
    obtain ⟨first, later⟩ := List.forall_mem_cons.mp blank
    simp [leadingLiterals, first, ih later]

/-- A string literal adds its text to that of the literals after it. -/
theorem leadingLiterals_literal {text written gap : List Char} (encodes : Encodes text written) (blank : Blank gap)
    (seen : Bool) (rest : List Char) :
    leadingLiterals (.between seen) ('"' :: (written ++ '"' :: (gap ++ rest))) =
      (leadingLiterals (.between true) rest).map (text ++ ·) := by
  have quote : isBlank '"' = false := by decide
  rw [leadingLiterals, if_neg (by simp [quote]), if_pos rfl, leadingLiterals_encodes encodes,
    leadingLiterals_blank blank]

/-- The literals in front of a closing parenthesis give the text that they were cut from. -/
theorem leadingLiterals_literals {pieces : List (List Char × List Char)} (spaced : ∀ piece ∈ pieces, Blank piece.2)
    {seen : Bool} (begun : seen = true ∨ pieces ≠ []) (tail : List Char) :
    leadingLiterals (.between seen) (literals pieces ++ ')' :: tail) = some (pieces.flatMap Prod.fst) := by
  induction pieces generalizing seen with
  | nil =>
    obtain rfl : seen = true := by simpa using begun
    simp [literals, leadingLiterals, isBlank]
  | cons first pieces ih =>
    obtain ⟨piece, gap⟩ := first
    obtain ⟨blank, later⟩ := List.forall_mem_cons.mp spaced
    rw [literals_cons, leadingLiterals_literal (encodes_escapeChars piece) blank, ih later (.inl rfl)]
    simp

theorem callToken?_literals {pieces : List (List Char × List Char)} (spaced : ∀ piece ∈ pieces, Blank piece.2)
    (nonempty : pieces ≠ []) (tail : List Char) :
    callToken? ('(' :: (literals pieces ++ ')' :: tail)) = some (pieces.flatMap Prod.fst) := by
  simp [callToken?, trimLeft, isBlank, leadingLiterals_literals spaced (.inr nonempty)]

theorem callToken?_wordChar {c : Char} (word : isWordChar c = true) (s : List Char) : callToken? (c :: s) = none := by
  have solid := wordChar_solid word
  have other : c ≠ '(' := by
    rintro rfl
    cases word
  simp [callToken?, trimLeft, solid, other]

theorem escapeChars_wordChar {c : Char} (word : isWordChar c = true) (s : List Char) :
    escapeChars (c :: s) = c :: escapeChars s := by
  have plain : ¬ (c = '\\' ∨ c = '"') := by
    rintro (rfl | rfl) <;> cases word
  rw [escapeChars, if_neg plain]

theorem escapeChars_append (a b : List Char) : escapeChars (a ++ b) = escapeChars a ++ escapeChars b := by
  induction a with
  | nil => rfl
  | cons c a ih =>
    rw [List.cons_append, escapeChars, escapeChars, ih]
    split <;> rfl

theorem getLast?_escapeChars (s : List Char) : (escapeChars s).getLast? = s.getLast? := by
  rcases List.eq_nil_or_concat s with rfl | ⟨s, c, rfl⟩
  · rfl
  · rw [List.concat_eq_append, escapeChars_append, escapeChars]
    split <;> simp [escapeChars]

theorem escapeChars_eq_word_append {word s back : List Char} (plain : ∀ c ∈ word, c ≠ '\\' ∧ c ≠ '"')
    (split : escapeChars s = word ++ back) : ∃ after, s = word ++ after ∧ back = escapeChars after := by
  induction word generalizing s with
  | nil => exact ⟨s, rfl, split.symm⟩
  | cons c word ih =>
    obtain ⟨first, later⟩ := List.forall_mem_cons.mp plain
    cases s with
    | nil => cases split
    | cons d s =>
      rw [escapeChars] at split
      split at split
      next => exact absurd (List.cons.inj split).1.symm first.1
      next =>
        obtain ⟨rfl, inner⟩ := List.cons.inj split
        obtain ⟨after, rfl, same⟩ := ih later inner
        exact ⟨after, rfl, same⟩

/-- What stands around a word in an escaped text, when no character of the word is escaped. -/
theorem escapeChars_eq_append {word s front back : List Char} (plain : ∀ c ∈ word, c ≠ '\\' ∧ c ≠ '"')
    (nonempty : word ≠ []) (split : escapeChars s = front ++ (word ++ back)) :
    ∃ before after, s = before ++ (word ++ after) ∧ front = escapeChars before ∧ back = escapeChars after := by
  induction s generalizing front with
  | nil => simp_all [escapeChars]
  | cons c s ih =>
    cases front with
    | nil =>
      obtain ⟨after, same, rest⟩ := escapeChars_eq_word_append plain split
      exact ⟨[], after, same, rfl, rest⟩
    | cons d front =>
      rw [escapeChars] at split
      split at split
      next special =>
        simp only [List.cons_append, List.cons.injEq] at split
        obtain ⟨rfl, inner⟩ := split
        cases front with
        | nil =>
          -- The escaped character would be the first of the word.
          obtain ⟨first, others, rfl⟩ := List.exists_cons_of_ne_nil nonempty
          obtain ⟨rfl, _⟩ := List.cons.inj inner
          have ordinary := plain c List.mem_cons_self
          simp [ordinary] at special
        | cons e front =>
          simp only [List.cons_append, List.cons.injEq] at inner
          obtain ⟨rfl, inner⟩ := inner
          obtain ⟨before, after, rfl, rfl, rest⟩ := ih inner
          exact ⟨c :: before, after, rfl, by simp [escapeChars, special], rest⟩
      next ordinary =>
        simp only [List.cons_append, List.cons.injEq] at split
        obtain ⟨rfl, inner⟩ := split
        obtain ⟨before, after, rfl, rfl, rest⟩ := ih inner
        exact ⟨c :: before, after, rfl, by simp [escapeChars, ordinary], rest⟩

theorem getLast?_cons_or (c : Char) (front : List Char) (previous : Option Char) :
    (c :: front).getLast?.or previous = front.getLast?.or (some c) := by
  rw [List.getLast?_cons]
  cases front.getLast? <;> rfl

theorem annotate_plain : ∀ c ∈ annotate, c ≠ '\\' ∧ c ≠ '"' := by simp [annotate]

/-- No call of `annotate` in the text has a token, where `previous` is the character in front. -/
def Silent (previous : Option Char) (s : List Char) : Prop :=
  ∀ front back, s = front ++ (annotate ++ back) →
    (front.getLast?.or previous).any isWordChar = true ∨ callToken? back = none

namespace Silent

variable {previous : Option Char} {s : List Char}

theorem nil (previous : Option Char) : Silent previous [] := by
  intro front back split
  simp [annotate] at split

theorem tail {c : Char} (silent : Silent previous (c :: s)) : Silent (some c) s := by
  intro front back split
  rw [← getLast?_cons_or]
  exact silent (c :: front) back (by rw [split, List.cons_append])

theorem tokens (silent : Silent previous s) : attributeTokensFrom previous s = [] := by
  induction s generalizing previous with
  | nil => rfl
  | cons c s ih =>
    rw [attributeTokensFrom, ih silent.tail]
    cases lead : Chars.afterLead? annotate (c :: s) with
    | none => rfl
    | some rest =>
      have split := afterLead?_eq_some_iff.mp lead
      have call := silent [] rest split
      rw [List.getLast?_nil, Option.none_or] at call
      dsimp only
      split
      next => rfl
      next bare => simp [call.resolve_left bare]

theorem cons {c : Char} (other : c ≠ 'a') (later : Silent (some c) s) : Silent previous (c :: s) := by
  intro front back split
  cases front with
  | nil => exact absurd (List.cons.inj split).1 other
  | cons d front =>
    obtain ⟨rfl, inner⟩ := List.cons.inj split
    rw [getLast?_cons_or]
    exact later front back inner

theorem append (front : List Char) (other : 'a' ∉ front) (later : ∀ previous, Silent previous s) :
    Silent previous (front ++ s) := by
  induction front generalizing previous with
  | nil => exact later previous
  | cons c front ih =>
    simp only [List.mem_cons, not_or] at other
    exact cons (Ne.symm other.1) (ih other.2)

theorem literal {piece : List Char} (unsaid : annotate ∉ splitAt (!isWordChar ·) piece)
    (later : ∀ previous, Silent previous s) : Silent previous ('"' :: (escapeChars piece ++ '"' :: s)) := by
  refine cons (by decide) fun front back split => ?_
  rcases append_mark_eq (by decide) (by decide) split with ⟨inside, escaped, rfl⟩ | ⟨between, rfl, inner⟩
  · obtain ⟨before, after, rfl, rfl, rfl⟩ := escapeChars_eq_append annotate_plain (by decide) escaped
    by_contra spoken
    obtain ⟨bare, called⟩ := not_or.mp spoken
    -- A call with a token has no word character on either side of its name, so the piece has the word.
    apply unsaid
    apply mem_splitAt (by simp [annotate, isWordChar])
    · intro c last
      rw [getLast?_escapeChars, Option.mem_def.mp last] at bare
      simpa using bare
    · intro c first
      cases after with
      | nil => cases first
      | cons d after =>
        obtain rfl : d = c := by simpa using first
        by_contra inner
        have word : isWordChar d = true := by simpa using inner
        rw [escapeChars_wordChar word] at called
        exact called (callToken?_wordChar word _)
  · rw [List.getLast?_append, Option.or_assoc, getLast?_cons_or]
    exact later _ between back inner

theorem literals {pieces : List (List Char × List Char)} (spaced : ∀ piece ∈ pieces, Blank piece.2)
    (unsaid : ∀ piece ∈ pieces, annotate ∉ splitAt (!isWordChar ·) piece.1) (later : ∀ previous, Silent previous s) :
    Silent previous (literals pieces ++ s) := by
  induction pieces generalizing previous with
  | nil => exact later previous
  | cons first pieces ih =>
    obtain ⟨piece, gap⟩ := first
    obtain ⟨blanks, spacedRest⟩ := List.forall_mem_cons.mp spaced
    obtain ⟨free, unsaidRest⟩ := List.forall_mem_cons.mp unsaid
    rw [literals_cons]
    have other : 'a' ∉ gap := fun member => absurd (blanks _ member) (by decide)
    exact literal free fun _ => append gap other fun _ => ih spacedRest unsaidRest

end Silent

/-- However a text is cut, a word that is nowhere in it is in none of the pieces. -/
theorem unsaid_of_absent {word text : List Char} {pieces : List (List Char × List Char)}
    (cut : pieces.flatMap Prod.fst = text) (absent : ¬ word <:+: text) :
    ∀ piece ∈ pieces, word ∉ splitAt (!isWordChar ·) piece.1 := by
  intro piece member said
  have part : piece.1 <:+: (pieces.map Prod.fst).flatten := List.infix_of_mem_flatten (List.mem_map_of_mem member)
  rw [← List.flatMap_def, cut] at part
  exact absent ((infix_of_mem_splitAt said).trans part)

/-- The token of an attribute where a call is opened and, behind its literals, closed. -/
theorem attributeTokens_call {text : String} {pieces : List (List Char × List Char)} (nonempty : text.toList ≠ [])
    (cut : pieces.flatMap Prod.fst = text.toList) (spaced : ∀ piece ∈ pieces, Blank piece.2)
    (unsaid : ∀ piece ∈ pieces, annotate ∉ splitAt (!isWordChar ·) piece.1) (front back : String) {tail : List Char}
    (opens : ∀ s, attributeTokensFrom none (front.toList ++ s) =
      (callToken? ('(' :: s)).toList ++ attributeTokensFrom (some '(') s)
    (closes : back.toList = ')' :: tail) (other : 'a' ∉ tail) :
    attributeTokens (front ++ String.ofList (literals pieces) ++ back) = [text] := by
  have more : pieces ≠ [] := by
    rintro rfl
    exact nonempty cut.symm
  have behind : ∀ previous, Silent previous (')' :: tail) := fun _ => by
    simpa using Silent.append (')' :: tail) (by simpa using other) Silent.nil
  have whole : (front ++ String.ofList (literals pieces) ++ back).toList =
      front.toList ++ (literals pieces ++ ')' :: tail) := by
    simp [closes]
  rw [attributeTokens, whole, opens, callToken?_literals spaced more, (Silent.literals spaced unsaid behind).tokens,
    cut, Option.toList_some, List.append_nil, List.map_singleton, String.ofList_toList]

section Comments

variable {text : List Char} (trimmed : Trimmed text) (nonempty : text ≠ [])
include trimmed nonempty

/-- The body of a line comment, whatever marks its opening has. -/
theorem commentBody?_line (marks : List Char) (marked : ∀ c ∈ marks, c = '/' ∨ c = '!') :
    commentBody? ('/' :: '/' :: (marks ++ ' ' :: text)) = some text := by
  have whole : Trimmed ('/' :: '/' :: (marks ++ [' ']) ++ text) :=
    trimmed.append nonempty (by simp [isBlank])
  have solid : trim ('/' :: '/' :: (marks ++ ' ' :: text)) = '/' :: '/' :: (marks ++ ' ' :: text) := by
    simpa using trim_of_trimmed whole
  have line : (marks ++ ' ' :: text).dropWhile (fun c => c == '/' || c == '!') = ' ' :: text := by
    rw [List.dropWhile_append_of_pos (by simpa using marked)]
    rfl
  simp [commentBody?, solid, line, Marker.trim_space trimmed]

/-- The body of a block comment on one line. -/
theorem commentBody?_block (stars : List Char) (starred : ∀ c ∈ stars, c = '*' ∨ c = '!') (unbroken : '\n' ∉ text)
    (unstarred : ∀ c ∈ text.head?, c ≠ '*') :
    commentBody? ('/' :: '*' :: (stars ++ ' ' :: (text ++ [' ', '*', '/']))) = some text := by
  have solid : trim ('/' :: '*' :: (stars ++ ' ' :: (text ++ [' ', '*', '/']))) =
      '/' :: '*' :: (stars ++ ' ' :: (text ++ [' ', '*', '/'])) := by
    simpa using trim_of_trimmed (trimmed_between (a := '/') (b := '/') (by decide) (by decide)
      ('*' :: (stars ++ ' ' :: (text ++ [' ', '*']))))
  have inside : beforeTail? ['*', '/'] (stars ++ ' ' :: (text ++ [' ', '*', '/'])) =
      some (stars ++ ' ' :: (text ++ [' '])) := by
    simp [beforeTail?, afterLead?]
  have block : (stars ++ ' ' :: (text ++ [' '])).dropWhile (fun c => c == '*' || c == '!') =
      ' ' :: (text ++ [' ']) := by
    rw [List.dropWhile_append_of_pos (by simpa using starred)]
    rfl
  have lines : splitAt (· == '\n') (' ' :: (text ++ [' '])) = [' ' :: (text ++ [' '])] := by
    apply splitAt_of_free
    intro c member
    have other : c ≠ '\n' := by
      rintro rfl
      simp [unbroken] at member
    simpa using other
  have stripped : text.dropWhile (· == '*') = text := by
    cases text with
    | nil => rfl
    | cons c text => simpa using unstarred c rfl
  have line : commentLine (' ' :: (text ++ [' '])) = text := by
    have spaced := @trim_of_blank [' '] text [' '] (by simp [Blank, isBlank]) trimmed (by simp [Blank, isBlank])
    rw [commentLine, ← List.singleton_append, spaced, stripped, trim_of_trimmed trimmed]
  simp [commentBody?, solid, inside, block, lines, line, nonempty]

end Comments

section
variable {text : String} (trimmed : Trimmed text.toList) (nonempty : text.toList ≠ [])
include trimmed nonempty

omit trimmed in
theorem commentToken?_of_body {written : String} (body : commentBody? written.toList = some text.toList) :
    commentToken? written = some text := by
  obtain ⟨first, others, same⟩ := List.exists_cons_of_ne_nil nonempty
  rw [commentToken?, body, same]
  dsimp only
  rw [← same, String.ofList_toList]

theorem commentToken?_line (front : String) {marks : List Char} (marked : ∀ c ∈ marks, c = '/' ∨ c = '!')
    (opens : front.toList = '/' :: '/' :: (marks ++ [' '])) : commentToken? (front ++ text) = some text := by
  have body := commentBody?_line trimmed nonempty marks marked
  exact commentToken?_of_body nonempty (by simpa [opens] using body)

theorem commentToken?_block (front : String) {stars : List Char} (starred : ∀ c ∈ stars, c = '*' ∨ c = '!')
    (opens : front.toList = '/' :: '*' :: (stars ++ [' '])) (unbroken : '\n' ∉ text.toList)
    (unstarred : ∀ c ∈ text.toList.head?, c ≠ '*') : commentToken? (front ++ text ++ " */") = some text := by
  have body := commentBody?_block trimmed nonempty stars starred unbroken unstarred
  exact commentToken?_of_body nonempty (by simpa [opens] using body)

end

namespace Spelling

/-- A marker is the one token of each of its spellings, and is read back from it. None of the pieces may have
the word `annotate`, which a cut within a longer word can lay bare; a text without it can be cut anywhere. -/
theorem tokens_marker {name : List Char} {args : List Argument} {text : String}
    {pieces : List (List Char × List Char)} (printed : text.toList = Marker.print Marker.defaultLead.toList name args)
    (named : Marker.isName Marker.isNameChar name = true) (printable : ∀ arg ∈ args, Marker.Printable arg)
    (unbroken : '\n' ∉ text.toList) (cut : pieces.flatMap Prod.fst = text.toList)
    (spaced : ∀ piece ∈ pieces, Blank piece.2) (unsaid : ∀ piece ∈ pieces, annotate ∉ splitAt (!isWordChar ·) piece.1)
    (spelling : Spelling) :
    spelling.tokens (spelling.write text (String.ofList (literals pieces))) = [text] ∧
      Marker.parse Marker.defaultLead text = .ok (some ⟨⟨String.ofList (name.map Marker.tagChar)⟩, args, text⟩) := by
  have first : text.toList.head? = some '\x7b' := by simp [printed, Marker.print, Marker.defaultLead]
  have nonempty : text.toList ≠ [] := by
    intro empty
    simp [empty] at first
  have trimmed : Trimmed text.toList := by
    rw [printed]
    exact Marker.trimmed_print args (by simp [Marker.defaultLead, isBlank]) named
  have unstarred : ∀ c ∈ text.toList.head?, c ≠ '*' := by simp [first]
  refine ⟨?_, Marker.parse_of_trim_eq_print (by rw [trim_of_trimmed trimmed, printed]) named printable⟩
  have line := commentToken?_line trimmed nonempty
  have block := commentToken?_block trimmed nonempty
  have attributed := attributeTokens_call nonempty cut spaced unsaid
  cases spelling with
  | line => exact congrArg Option.toList (@line "// " [] (by simp) rfl)
  | outerDoc => exact congrArg Option.toList (@line "/// " ['/'] (by simp) rfl)
  | innerDoc => exact congrArg Option.toList (@line "//! " ['!'] (by simp) rfl)
  | block => exact congrArg Option.toList (@block "/* " [] (by simp) rfl unbroken unstarred)
  | docBlock => exact congrArg Option.toList (@block "/** " ['*'] (by simp) rfl unbroken unstarred)
  | gnu => exact attributed "__attribute__((annotate(" ")))" (fun _ => rfl) rfl (by decide)
  | clang => exact attributed "[[clang::annotate(" ")]]" (fun _ => rfl) rfl (by decide)

theorem tokens_marker_cut :
    let text := "\x7bgen\x7d;\x7bfunccall\x7d;Make_Map(type = \"std::map<int, (a] // /* *\", \" x = 1)\")"
    let literals := "\"\x7bgen\x7d;\x7bfunccall\x7d;Make_Map(type = \\\"std::map<\"\n  " ++
      "\"int, (a] // /* *\\\", \" \"\\\" x = 1)\\\")\""
    ∀ spelling : Spelling, spelling.tokens (spelling.write text literals) = [text] ∧
      Marker.parse Marker.defaultLead text =
        .ok (some ⟨⟨"make-map"⟩, [⟨some "type", "std::map<int, (a] // /* *"⟩, ⟨none, " x = 1)"⟩], text⟩) := by
  intro text literals spelling
  let args : List Argument := [⟨some "type", "std::map<int, (a] // /* *"⟩, ⟨none, " x = 1)"⟩]
  let pieces : List (List Char × List Char) :=
    [("\x7bgen\x7d;\x7bfunccall\x7d;Make_Map(type = \"std::map<".toList, ['\n', ' ', ' ']),
      ("int, (a] // /* *\", ".toList, [' ']), ("\" x = 1)\")".toList, [])]
  have printed : text.toList = Marker.print Marker.defaultLead.toList "Make_Map".toList args := by decide +kernel
  have cut : pieces.flatMap Prod.fst = text.toList := by decide +kernel
  have absent : ¬ annotate <:+: text.toList := by decide +kernel
  have spaced : ∀ piece ∈ pieces, Blank piece.2 := by simp [pieces, Blank, isBlank]
  have written : String.ofList (AnnotationTokens.literals pieces) = literals := by decide +kernel
  have tag : String.ofList ("Make_Map".toList.map Marker.tagChar) = "make-map" := by decide +kernel
  have found := tokens_marker printed (by decide +kernel) (by decide +kernel) (by decide +kernel) cut spaced
    (unsaid_of_absent cut absent) spelling
  rwa [written, tag] at found

end Spelling

end MarkerGen.AnnotationTokens
