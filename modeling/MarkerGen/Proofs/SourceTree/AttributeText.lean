import MarkerGen.Proofs.SourceTree.Spellings

/-! The text of an attribute and its tokens. Where only the names of calls say `annotate`, the calls give
their tokens in order, whatever their string literals hold and however these are written. -/
namespace MarkerGen.AnnotationTokens

open Chars

/-- A string literal among the arguments of a call, with the blanks behind it. -/
structure Piece where
  text : List Char
  written : List Char
  gap : List Char
  encodes : Encodes text written
  blank : Blank gap
  unsaid : ¬ annotate <:+: text

/-- A call of `annotate` with string literals for its first argument and any others behind a comma. -/
structure AnnotateCall where
  lead : List Char
  inner : List Char
  pieces : List Piece
  more : Option (List Char)
  leadBlank : Blank lead
  innerBlank : Blank inner
  nonempty : pieces ≠ []
  unsaid : ∀ args ∈ more, ¬ annotate <:+: args

def Piece.write (piece : Piece) : List Char := '"' :: (piece.written ++ '"' :: piece.gap)

namespace AnnotateCall

def arguments (call : AnnotateCall) : List Char :=
  call.inner ++ (call.pieces.flatMap Piece.write ++ call.more.elim [] (',' :: ·))

def write (call : AnnotateCall) : List Char :=
  call.lead ++ ("clang::".toList ++ (annotate ++ '(' :: (call.arguments ++ [')'])))

def token (call : AnnotateCall) : List Char := call.pieces.flatMap Piece.text

end AnnotateCall

def attributeText (calls : List AnnotateCall) : String :=
  "[[" ++ String.ofList ([','].intercalate (calls.map AnnotateCall.write)) ++ "]]"

theorem write_pieces_cons (piece : Piece) (pieces : List Piece) (s : List Char) :
    (piece :: pieces).flatMap Piece.write ++ s =
      '"' :: (piece.written ++ '"' :: (piece.gap ++ (pieces.flatMap Piece.write ++ s))) := by
  simp [Piece.write]

theorem prefix_of_encodes {text written word : List Char} (encodes : Encodes text written)
    (plain : ∀ c ∈ word, c ≠ '\\' ∧ c ≠ '"') (found : word <+: written) : word <+: text := by
  induction word generalizing text written with
  | nil => exact List.nil_prefix
  | cons w word ih =>
    obtain ⟨first, later⟩ := List.forall_mem_cons.mp plain
    cases encodes with
    | nil => simp at found
    | char c rest =>
      rw [Text.escapeChars, Text.escapeChars] at found
      split at found
      next => exact absurd (List.cons_prefix_cons.mp found).1 first.1
      next =>
        obtain ⟨rfl, others⟩ := List.cons_prefix_cons.mp found
        exact List.cons_prefix_cons.mpr ⟨rfl, ih rest later others⟩
    | lineBreak | tab => exact absurd (List.cons_prefix_cons.mp found).1 first.1

theorem unsaid_of_encodes {text written : List Char} (encodes : Encodes text written)
    (unsaid : ¬ annotate <:+: text) : ¬ annotate <:+: written := by
  -- A letter behind a backslash does not begin the word, which thus stands further on.
  have behind {e : Char} {s : List Char} (other : e ≠ 'a') (found : annotate <:+: '\\' :: e :: s) :
      annotate <:+: s := by
    rcases List.infix_cons_iff.mp found with front | found
    · exact absurd (List.cons_prefix_cons.mp front).1 (by decide)
    · exact (List.infix_cons_iff.mp found).resolve_left fun front => other (List.cons_prefix_cons.mp front).1.symm
  intro said
  apply unsaid
  clear unsaid
  induction encodes with
  | nil => exact said
  | char c rest ih =>
    rw [Text.escapeChars] at said
    split at said
    next special =>
      have other : c ≠ 'a' := by rcases special with rfl | rfl <;> decide
      exact List.infix_cons (ih (behind other said))
    next plain =>
      rcases List.infix_cons_iff.mp said with front | inside
      · refine (prefix_of_encodes (.char c rest) annotate_plain ?_).isInfix
        simpa [Text.escapeChars, plain] using front
      · exact List.infix_cons (ih inside)
  | lineBreak _ ih | tab _ ih => exact List.infix_cons (ih (behind (by decide) said))

theorem not_mem_annotate_of_blank {gap : List Char} (blank : Blank gap) : ∀ c ∈ gap, c ∉ annotate := by
  have solid : ∀ c ∈ annotate, isBlank c = false := by simp [annotate, isBlank]
  intro c member inside
  exact absurd (blank c member) (by simp [solid c inside])

theorem unsaid_pieces (pieces : List Piece) {s : List Char} (unsaid : ¬ annotate <:+: s) :
    ¬ annotate <:+: pieces.flatMap Piece.write ++ s := by
  induction pieces with
  | nil => exact unsaid
  | cons piece pieces ih =>
    intro said
    rw [write_pieces_cons] at said
    have said := infix_of_infix_append ['"'] (by simp [annotate]) (by decide) said
    rcases infix_append_mark piece.written (by decide) (by decide) said with inside | behind
    · exact unsaid_of_encodes piece.encodes piece.unsaid inside
    · exact ih (infix_of_infix_append piece.gap (not_mem_annotate_of_blank piece.blank) (by decide) behind)

theorem AnnotateCall.unsaid_arguments (call : AnnotateCall) : ¬ annotate <:+: call.arguments := by
  intro said
  have said := infix_of_infix_append call.inner (not_mem_annotate_of_blank call.innerBlank) (by decide) said
  refine unsaid_pieces call.pieces ?_ said
  cases more : call.more with
  | none => decide
  | some args =>
    exact fun said => call.unsaid args more (infix_of_infix_append [','] (by simp [annotate]) (by decide) said)

/-- Nothing is found in a text that does not say `annotate`, up to a character that is not in the word. -/
theorem attributeTokensFrom_skip {s : List Char} (unsaid : ¬ annotate <:+: s) {c : Char} (other : c ∉ annotate)
    (previous : Option Char) (rest : List Char) :
    attributeTokensFrom previous (s ++ c :: rest) = attributeTokensFrom (some c) rest := by
  have silent {s : List Char} (unsaid : ¬ annotate <:+: s) : afterLead? annotate (s ++ c :: rest) = none :=
    afterLead?_eq_none_iff.mpr fun front => unsaid (prefix_append_mark other (by decide) front).isInfix
  induction s generalizing previous with
  | nil =>
    have none := silent unsaid
    rw [List.nil_append] at none ⊢
    rw [attributeTokensFrom, none]
    rfl
  | cons d s ih =>
    have none := silent unsaid
    rw [List.cons_append] at none ⊢
    rw [attributeTokensFrom, none, ih fun said => unsaid (List.infix_cons said)]
    rfl

theorem leadingLiterals_pieces {pieces : List Piece} {seen : Bool} (begun : seen = true ∨ pieces ≠ []) {c : Char}
    (ends : c = ',' ∨ c = ')') (rest : List Char) :
    leadingLiterals (.between seen) (pieces.flatMap Piece.write ++ c :: rest) = some (pieces.flatMap Piece.text) := by
  induction pieces generalizing seen with
  | nil =>
    obtain rfl : seen = true := by simpa using begun
    rcases ends with rfl | rfl <;> simp [leadingLiterals, isBlank]
  | cons piece pieces ih =>
    rw [write_pieces_cons, leadingLiterals_literal piece.encodes piece.blank, ih (.inl rfl)]
    simp

/-- What stands behind the name of a call decodes to its token. -/
theorem AnnotateCall.callToken?_arguments (call : AnnotateCall) (rest : List Char) :
    callToken? ('(' :: (call.arguments ++ ')' :: rest)) = some call.token := by
  have ends : ∃ c tail, call.more.elim [] (',' :: ·) ++ ')' :: rest = c :: tail ∧ (c = ',' ∨ c = ')') := by
    cases call.more with
    | none => exact ⟨')', rest, rfl, .inr rfl⟩
    | some args => exact ⟨',', args ++ ')' :: rest, rfl, .inl rfl⟩
  obtain ⟨c, tail, split, ends⟩ := ends
  have literals : leadingLiterals (.between false) _ = some call.token :=
    leadingLiterals_pieces (.inr call.nonempty) ends tail
  rw [← split] at literals
  simp [callToken?, trimLeft, isBlank, arguments, leadingLiterals_blank call.innerBlank, literals]

/-- A call among others, where `previous` stands for what is in front and `rest` for what is behind. -/
theorem AnnotateCall.tokens_write (call : AnnotateCall) {front : List Char} (other : 'o' ∉ front)
    (previous : Option Char) (rest : List Char) :
    attributeTokensFrom previous (front ++ (call.write ++ rest)) =
      call.token :: attributeTokensFrom (some ')') rest := by
  have split : front ++ (call.write ++ rest) =
      (front ++ (call.lead ++ "clang:".toList)) ++ ':' :: (annotate ++ '(' :: (call.arguments ++ ')' :: rest)) := by
    simp [write]
  -- What stands between two calls has other letters of the word, but no `o`.
  have unsaid : ¬ annotate <:+: front ++ (call.lead ++ "clang:".toList) := by
    intro said
    have letter : 'o' ∈ front ++ (call.lead ++ "clang:".toList) := said.subset (by decide)
    have solid : 'o' ∉ call.lead := fun member => absurd (call.leadBlank _ member) (by decide)
    simp [other, solid] at letter
  have inside : ¬ annotate <:+: '(' :: call.arguments := fun said =>
    call.unsaid_arguments (infix_of_infix_append ['('] (by simp [annotate]) (by decide) said)
  have opened (s : List Char) :
      attributeTokensFrom (some ':') (annotate ++ s) = (callToken? s).toList ++ attributeTokensFrom (some 'e') s := rfl
  rw [split, attributeTokensFrom_skip unsaid (by decide), opened, call.callToken?_arguments, ← List.cons_append,
    attributeTokensFrom_skip inside (by decide)]
  rfl

theorem tokens_calls (calls : List AnnotateCall) {front : List Char} (other : 'o' ∉ front) (previous : Option Char) :
    attributeTokensFrom previous (front ++ ([','].intercalate (calls.map AnnotateCall.write) ++ [']', ']'])) =
      calls.map AnnotateCall.token := by
  induction calls generalizing front previous with
  | nil =>
    have unsaid : ¬ annotate <:+: front ++ [']'] := by
      intro said
      have letter : 'o' ∈ front ++ [']'] := said.subset (by decide)
      simp [other] at letter
    have skipped := attributeTokensFrom_skip unsaid (c := ']') (by decide) previous []
    simpa [attributeTokensFrom] using skipped
  | cons call calls ih =>
    cases calls with
    | nil => simpa [attributeTokensFrom, afterLead?, annotate] using call.tokens_write other previous [']', ']']
    | cons next calls =>
      have split : [','].intercalate ((call :: next :: calls).map AnnotateCall.write) ++ [']', ']'] =
          call.write ++ ([','] ++ ([','].intercalate ((next :: calls).map AnnotateCall.write) ++ [']', ']'])) := by
        simp [List.intercalate_cons_cons]
      rw [split, call.tokens_write other, ih (by decide)]
      rfl

/-- The calls in an attribute give their tokens, one for each and in their order. -/
theorem attributeTokens_attributeText (calls : List AnnotateCall) :
    attributeTokens (attributeText calls) = calls.map (String.ofList ·.token) := by
  have whole : (attributeText calls).toList =
      ['[', '['] ++ ([','].intercalate (calls.map AnnotateCall.write) ++ [']', ']']) := by
    simp [attributeText]
  rw [attributeTokens, whole, tokens_calls calls (by decide), List.map_map]
  rfl

/-- One call with a plain literal, and one with two literals and an argument after them. The first of
the two has a quote, the second one is a line break. -/
def twoCalls : List AnnotateCall :=
  let plain : Piece := ⟨"skip_pimpl".toList, _, [], encodes_escapeChars _, by decide, by decide +kernel⟩
  let quoted : Piece := ⟨"a\"b)".toList, _, [' '], encodes_escapeChars _, by decide, by decide +kernel⟩
  let broken : Piece := ⟨['\n'], _, [], .lineBreak .nil, by decide, by decide⟩
  [⟨[], [], [plain], none, by decide, by decide, by decide, by decide⟩,
    ⟨[' '], [], [quoted, broken], some " 1".toList, by decide, by decide, by decide, by decide +kernel⟩]

theorem attributeTokens_twoCalls :
    attributeText twoCalls = "[[clang::annotate(\"skip_pimpl\"), clang::annotate(\"a\\\"b)\" \"\\n\", 1)]]" ∧
      attributeTokens "[[clang::annotate(\"skip_pimpl\"), clang::annotate(\"a\\\"b)\" \"\\n\", 1)]]" =
        ["skip_pimpl", "a\"b)\n"] := by
  have text : attributeText twoCalls =
      "[[clang::annotate(\"skip_pimpl\"), clang::annotate(\"a\\\"b)\" \"\\n\", 1)]]" := by decide +kernel
  refine ⟨text, ?_⟩
  rw [← text, attributeTokens_attributeText]
  decide +kernel

end MarkerGen.AnnotationTokens
