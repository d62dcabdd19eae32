import Mathlib.Data.List.Induction
import MarkerGen.Proofs.Marker.RoundTrip
import MarkerGen.Text.Literal

/-! What the two scans of a marker take for quoted. The search for the closing parenthesis minds
backslashes and the division of the argument list does not, so they agree at every character exactly
if no quote is escaped; and then nothing divides the list inside a literal. -/
namespace MarkerGen.Marker

open Chars
open Text (escapeChars)

def Quoting.step : Quoting → Char → Quoting
  | .outside, c => if c = '"' then .inside else .outside
  | .inside, c => if c = '\\' then .escaped else if c = '"' then .outside else .inside
  | .escaped, _ => .inside

def Quoting.after (q : Quoting) (s : List Char) : Quoting := s.foldl Quoting.step q

/-- Whether the search for the closing parenthesis takes the place behind some text for quoted. -/
def inLiteral (front : List Char) : Bool := Quoting.outside.after front != .outside

/-- Whether the division of an argument list takes the place behind some text for quoted. -/
def inQuotes (useAngles : Bool) (front : List Char) : Bool := (Nesting.start.after useAngles front).quoted

def SeenAlike (s : List Char) : Prop :=
  ∀ front c back, s = front ++ c :: back → ∀ useAngles, inLiteral front = inQuotes useAngles front

/-- Some quote stands behind a backslash inside of a literal. -/
def EscapedQuote (s : List Char) : Prop :=
  ∃ front back, s = front ++ '"' :: back ∧ Quoting.outside.after front = .escaped

def DividedOutside (sep : Char) (s : List Char) : Prop :=
  ∀ a b, splitTop sep s = a ++ b → a ≠ [] → b ≠ [] → inLiteral ([sep].intercalate a) = false

section
variable {s front back : List Char} {c : Char}

/-! ### The search for the closing parenthesis -/

theorem Quoting.after_nil (q : Quoting) : q.after [] = q := rfl

theorem Quoting.after_cons (q : Quoting) (c : Char) (s : List Char) : q.after (c :: s) = (q.step c).after s := rfl

theorem Quoting.after_append (q : Quoting) (a b : List Char) : q.after (a ++ b) = (q.after a).after b :=
  List.foldl_append

theorem after_literal {t : List Char} (literal : Literal t) : Quoting.inside.after t = .inside := by
  induction literal with
  | nil => rfl
  | plain quote escape rest ih => simpa [Quoting.after_cons, Quoting.step, quote, escape] using ih
  | escaped c rest ih => simpa [Quoting.after_cons, Quoting.step] using ih

theorem after_body (body : Body s) : Quoting.outside.after s = .outside := by
  induction body with
  | nil => rfl
  | plain quote opening closing rest ih => simpa [Quoting.after_cons, Quoting.step, quote] using ih
  | quoted literal rest ih =>
    simpa [Quoting.after_cons, Quoting.after_append, Quoting.step, after_literal literal] using ih
  | nested inside rest first second =>
    simp [Quoting.after_cons, Quoting.after_append, Quoting.step, first, second]

def Quoting.depth (q : Quoting) (depth : Nat) (c : Char) : Nat :=
  if q = .outside ∧ c = '(' then depth + 1 else if q = .outside ∧ c = ')' then depth - 1 else depth

theorem closeParen_step (q : Quoting) (depth : Nat) (c : Char) (s : List Char) :
    closeParen q depth (c :: s) = if q = .outside ∧ c = ')' ∧ depth = 0 then some ([], s)
      else closeParen.keep c (closeParen (q.step c) (q.depth depth c) s) := by
  cases q with
  | escaped => simp [closeParen, Quoting.step, Quoting.depth]
  | inside => simp [closeParen, Quoting.step, Quoting.depth]
  | outside =>
    by_cases quote : c = '"'
    · simp [closeParen, Quoting.step, Quoting.depth, quote]
    · by_cases opening : c = '('
      · simp [closeParen, Quoting.step, Quoting.depth, opening]
      · by_cases closing : c = ')'
        · cases depth <;> simp [closeParen, Quoting.step, Quoting.depth, closing]
        · simp [closeParen, Quoting.step, Quoting.depth, quote, opening, closing]

/-- Behind the text that it has passed, the search is in the state that this text leads to. -/
theorem closeParen_at {q : Quoting} {depth : Nat} {tail rest : List Char}
    (found : closeParen q depth (front ++ tail) = some (front ++ back, rest)) :
    ∃ depth, closeParen (q.after front) depth tail = some (back, rest) := by
  induction front generalizing q depth with
  | nil => exact ⟨depth, found⟩
  | cons c front ih =>
    rw [List.cons_append, closeParen_step] at found
    split at found
    · simp at found
    · obtain ⟨more, later, same⟩ := keep_eq_some found
      obtain rfl := (List.cons.inj same).2
      exact ih later

/-! ### The division of an argument list -/

theorem quoted_step (useAngles : Bool) (n : Nesting) (c : Char) :
    (n.step useAngles c).quoted = (n.quoted ^^ (c == '"')) := by
  by_cases quote : c = '"'
  · simp [Nesting.step, quote]
  · rw [beq_eq_false_iff_ne.mpr quote, Bool.xor_false, Nesting.step, if_neg quote]
    repeat' split
    all_goals rfl

theorem inQuotes_concat (useAngles : Bool) (front : List Char) (c : Char) :
    inQuotes useAngles (front ++ [c]) = (inQuotes useAngles front ^^ (c == '"')) := by
  rw [inQuotes, Nesting.after, List.foldl_append]
  exact quoted_step useAngles _ c

theorem inLiteral_concat (unescaped : Quoting.outside.after front = .escaped → c ≠ '"') :
    inLiteral (front ++ [c]) = (inLiteral front ^^ (c == '"')) := by
  rw [inLiteral, inLiteral, Quoting.after_append, Quoting.after_cons, Quoting.after_nil]
  by_cases quote : c = '"'
  · subst quote
    cases state : Quoting.outside.after front with
    | outside => rfl
    | inside => rfl
    | escaped => exact absurd rfl (unescaped state)
  · rw [beq_eq_false_iff_ne.mpr quote, Bool.xor_false]
    cases Quoting.outside.after front with
    | outside => rw [Quoting.step, if_neg quote]
    | inside =>
      rw [Quoting.step, if_neg quote]
      split <;> rfl
    | escaped => rfl

/-- Where no quote is escaped, the scans agree. -/
theorem inLiteral_eq_inQuotes (unescaped : ¬ EscapedQuote (front ++ back)) (useAngles : Bool) :
    inLiteral front = inQuotes useAngles front := by
  induction front using List.reverseRecOn generalizing back with
  | nil => rfl
  | append_singleton front c ih =>
    rw [List.append_assoc] at unescaped
    have plain : Quoting.outside.after front = .escaped → c ≠ '"' := by
      rintro state rfl
      exact unescaped ⟨front, back, rfl, state⟩
    rw [inLiteral_concat plain, inQuotes_concat, ih unescaped]

/-- In a list that is closed outside of its literals, the scans agree exactly if no quote is escaped. -/
theorem seenAlike_iff (closed : Quoting.outside.after s = .outside) : SeenAlike s ↔ ¬ EscapedQuote s := by
  constructor
  · rintro alike ⟨front, back, rfl, state⟩
    have escaped : inLiteral front = true := by simp [inLiteral, state]
    have quoted : inQuotes true front = true := (alike front '"' back rfl true).symm.trans escaped
    have inside : Quoting.outside.after (front ++ ['"']) = .inside := by
      rw [Quoting.after_append, state]
      rfl
    -- The escaped quote is not the last character, since a literal is open behind it.
    cases back with
    | nil =>
      rw [inside] at closed
      cases closed
    | cons c back =>
      have next := alike (front ++ ['"']) c back (by simp) true
      rw [inQuotes_concat, quoted, inLiteral, inside] at next
      cases next
  · rintro unescaped front c back rfl useAngles
    exact inLiteral_eq_inQuotes unescaped useAngles

theorem dividedOutside (sep : Char) (unescaped : ¬ EscapedQuote s) : DividedOutside sep s := by
  intro a b pieces first second
  obtain ⟨parts, top⟩ := splitNested_divided (pieces ▸ splitNested_splitTop sep s) first second
  have agree := inLiteral_eq_inQuotes (parts ▸ unescaped) (paired s)
  rw [agree, inQuotes]
  exact (isTop_iff.mp top).2.2

theorem outside_iff : Quoting.outside.after front = .outside ↔ inLiteral front = false := by
  simp [inLiteral]

theorem after_blank (blank : Blank s) : Quoting.outside.after s = .outside := by
  induction s with
  | nil => rfl
  | cons c s ih =>
    obtain ⟨first, later⟩ := List.forall_mem_cons.mp blank
    have plain : c ≠ '"' := by
      rintro rfl
      cases first
    rw [Quoting.after_cons, Quoting.step, if_neg plain, ih later]

theorem EscapedQuote.within (outer : Quoting.outside.after front = .outside) (escaped : EscapedQuote s)
    (back : List Char) : EscapedQuote (front ++ (s ++ back)) := by
  obtain ⟨before, after, rfl, state⟩ := escaped
  exact ⟨front ++ before, after ++ back, by simp, by rw [Quoting.after_append, outer, state]⟩

theorem item_unescaped {sep : Char} (plain : sep ≠ '"') (unescaped : ¬ EscapedQuote s) {piece : List Char}
    (member : piece ∈ splitTop sep s) : ¬ EscapedQuote (trim piece) := by
  intro escaped
  obtain ⟨a, b, pieces⟩ := List.append_of_mem member
  have joined := intercalate_splitNested (splitNested_splitTop sep s)
  obtain ⟨tail, behind⟩ : ∃ tail, [sep].intercalate (piece :: b) = piece ++ tail := by
    cases b with
    | nil => exact ⟨[], by simp⟩
    | cons next b => exact ⟨sep :: [sep].intercalate (next :: b), by simp⟩
  obtain ⟨before, whole, outer⟩ : ∃ before, s = before ++ (piece ++ tail) ∧ Quoting.outside.after before = .outside := by
    cases a with
    | nil =>
      rw [pieces, List.nil_append, behind] at joined
      exact ⟨[], joined.symm, rfl⟩
    | cons first a =>
      have divided := pieces ▸ splitNested_splitTop sep s
      obtain ⟨parts, _⟩ := splitNested_divided divided (List.cons_ne_nil first a) (List.cons_ne_nil piece b)
      have outer := dividedOutside sep unescaped _ _ pieces (List.cons_ne_nil first a) (List.cons_ne_nil piece b)
      refine ⟨[sep].intercalate (first :: a) ++ [sep], by rw [parts, behind]; simp, ?_⟩
      rw [Quoting.after_append, outside_iff.mpr outer, Quoting.after_cons, Quoting.step, if_neg plain, Quoting.after_nil]
  obtain ⟨left, right, split, blank, _⟩ := trim_parts piece
  refine unescaped (whole ▸ ?_)
  have inside := (escaped.within (after_blank blank) right).within outer tail
  rwa [← split] at inside

/-! ### A value with quotes and backslashes escaped -/

theorem literal_escapeChars (v : List Char) : Literal (escapeChars v) := by
  induction v with
  | nil => exact .nil
  | cons c v ih =>
    rw [escapeChars]
    split
    · exact .escaped c ih
    next plain => exact .plain (fun quote => plain (.inr quote)) (fun escape => plain (.inl escape)) ih

theorem trim_nonempty (solid : isBlank c = false) (member : c ∈ s) : (trim s).isEmpty = false := by
  have kept := (mem_trim_iff solid s).mpr member
  cases trimmed : trim s with
  | nil => simp [trimmed] at kept
  | cons => rfl

section
variable {k : String} (word : ∀ j ∈ some k, isName isWordChar j.toList = true)
include word

variable (q : List Char)

/-- Two pieces would give two arguments, since neither the first nor the last one is blank. -/
theorem parseArguments_eq_singleton_iff :
    parseArguments (label (some k) ++ '"' :: (q ++ ['"'])) = [⟨some k, String.ofList q⟩] ↔
      splitTop ',' (label (some k) ++ '"' :: (q ++ ['"'])) = [label (some k) ++ '"' :: (q ++ ['"'])] := by
  obtain ⟨c, head, solid, notComma⟩ := head?_labelled word (q ++ ['"'])
  have last : (label (some k) ++ '"' :: (q ++ ['"'])).getLast? = some '"' := by
    rw [← List.cons_append, ← List.append_assoc, List.getLast?_append, List.getLast?_singleton, Option.some_or]
  have named := parseArgument_labelled (word k rfl) q
  have trimmed := trimmed_labelled word q
  generalize label (some k) ++ '"' :: (q ++ ['"']) = body at *
  have split := splitNested_splitTop ',' body
  constructor
  · intro single
    obtain ⟨first, rest, pieces⟩ := List.exists_cons_of_ne_nil (splitNested_ne_nil split)
    rw [pieces] at split ⊢
    rcases List.eq_nil_or_concat rest with rfl | ⟨middle, final, rfl⟩
    · rw [← intercalate_splitNested split, List.intercalate_singleton]
    · exfalso
      rw [List.concat_eq_append] at split pieces
      obtain ⟨front, _⟩ := splitNested_divided (a := [first]) split (List.cons_ne_nil _ _) (by simp)
      obtain ⟨back, _⟩ := splitNested_divided (a := first :: middle) split (List.cons_ne_nil _ _) (List.cons_ne_nil _ _)
      rw [List.intercalate_singleton] at front back
      have firstSolid : (trim first).isEmpty = false := by
        apply trim_nonempty (c := c) solid
        cases first with
        | nil => exact absurd (by simpa [front] using head) notComma.symm
        | cons d first =>
          rw [front] at head
          exact Option.some.inj head ▸ List.mem_cons_self
      have finalSolid : (trim final).isEmpty = false := by
        apply trim_nonempty (c := '"') (by decide)
        rw [back, List.getLast?_append] at last
        cases final with
        | nil => cases last
        | cons d final =>
          rw [List.getLast?_cons_cons] at last
          exact List.mem_of_getLast? (by simpa using last)
      have two := congrArg List.length single
      rw [parseArguments, pieces] at two
      simp [firstSolid, finalSolid] at two
  · intro whole
    have some : body.isEmpty = false := by
      cases body with
      | nil => cases head
      | cons => rfl
    rw [parseArguments, whole, List.map_singleton, trim_of_trimmed trimmed, List.filter_singleton, some]
    simp [named]

theorem splitTop_literal {q : List Char} (free : '"' ∉ q) :
    splitTop ',' (label (some k) ++ '"' :: (q ++ ['"'])) = [label (some k) ++ '"' :: (q ++ ['"'])] :=
  have calm := label_calm word
  (((splits_nil ',').literal free (by decide)).word (fun c member => (calm c member).1)
    fun member => (calm _ member).2 rfl).splitTop

theorem parse_quoted {lead : String} {name : List Char} (led : ∀ c ∈ lead.toList.head?, isBlank c = false)
    (named : isName isNameChar name = true) {q : List Char} (literal : Literal q) :
    parse lead (String.ofList (print lead.toList name [⟨some k, String.ofList q⟩])) =
      .ok (some ⟨⟨String.ofList (name.map tagChar)⟩, parseArguments (label (some k) ++ '"' :: (q ++ ['"'])),
        String.ofList (print lead.toList name [⟨some k, String.ofList q⟩])⟩) := by
  have body := body_labelled word literal
  have whole : [',', ' '].intercalate ([(⟨some k, String.ofList q⟩ : Argument)].map printArgument) =
      label (some k) ++ '"' :: (q ++ ['"']) := by
    simp [printArgument_eq]
  rw [← whole] at body ⊢
  exact parse_of_body (trim_print _ led named) named body

end

end

theorem escapeChars_free {v : List Char} (free : '"' ∉ v) : '"' ∉ escapeChars v := by
  induction v with
  | nil => exact free
  | cons c v ih =>
    simp only [List.mem_cons, not_or] at free
    rw [escapeChars]
    split <;> simp [free.1, ih free.2]

/-- The argument list of a token, with what the search for its end is at on each position of it. -/
structure Enclosed (lead token : String) (body : List Char) : Prop where
  cut : ∃ r before, trim token.toList = lead.toList ++ r ∧ trim r = before ++ '(' :: (body ++ [')']) ∧ '(' ∉ before
  found : closeParen .outside 0 (body ++ [')']) = some (body, [])
  passed : ∀ front back, body = front ++ back →
    ∃ depth, closeParen (Quoting.outside.after front) depth (back ++ [')']) = some (back, [])

theorem enclosed_of_parse {lead token : String} {m : Marker} (read : parse lead token = .ok (some m)) :
    ∃ body, Enclosed lead token body ∧ Body body ∧ m.args = parseArguments body := by
  have reads := reads_parse lead token
  rw [read] at reads
  cases reads with
  | @marker r name before body led cut heading inside =>
    have found : closeParen .outside 0 (body ++ [')']) = some (body, []) := closeParen_eq_some_iff.mpr ⟨rfl, inside⟩
    refine ⟨body, ⟨⟨r, before, led, cut, heading.free⟩, found, ?_⟩, inside, rfl⟩
    rintro front back rfl
    rw [List.append_assoc] at found
    exact closeParen_at found

/-- What is written as one quoted value is always accepted, and it is read as one argument unless a comma of it stands
outside of the quotes as the division of the list counts them. In every token that is accepted, the division and the
search for the closing parenthesis take the same characters for quoted exactly if no quote is escaped; and then neither
a comma nor a `=` divides anything within quotes. -/
theorem quoted_alike (lead : String) :
    (∀ name k v, (∀ c ∈ lead.toList.head?, isBlank c = false) → isName isNameChar name = true →
      isName isWordChar k.toList = true →
      let arg : Argument := ⟨some k, String.ofList (escapeChars v)⟩
      let token := String.ofList (print lead.toList name [arg])
      ∃ args, parse lead token = .ok (some ⟨⟨String.ofList (name.map tagChar)⟩, args, token⟩) ∧
        (args = [arg] ↔ ∀ front back, printArgument arg = front ++ ',' :: back →
          (Nesting.start.after (paired (printArgument arg)) front).isTop = false) ∧
        ('"' ∉ v → args = [arg])) ∧
    ∀ token m, parse lead token = .ok (some m) →
      ∃ body, Enclosed lead token body ∧ m.args = parseArguments body ∧ (SeenAlike body ↔ ¬ EscapedQuote body) ∧
        (¬ EscapedQuote body → DividedOutside ',' body ∧
          ∀ item ∈ (splitTop ',' body).map trim, DividedOutside '=' item) := by
  constructor
  · intro name k v led named word arg token
    have words : ∀ j ∈ some k, isName isWordChar j.toList = true := by simpa using word
    refine ⟨_, parse_quoted words led named (literal_escapeChars v), ?_, ?_⟩
    · rw [parseArguments_eq_singleton_iff words, splitTop_eq_singleton_iff, printArgument_eq, String.toList_ofList]
    · exact fun free => (parseArguments_eq_singleton_iff words _).mpr (splitTop_literal words (escapeChars_free free))
  · intro token m read
    obtain ⟨body, enclosed, inside, args⟩ := enclosed_of_parse read
    refine ⟨body, enclosed, args, seenAlike_iff (after_body inside), fun unescaped => ?_⟩
    refine ⟨dividedOutside ',' unescaped, fun item member => ?_⟩
    obtain ⟨piece, inner, rfl⟩ := List.mem_map.mp member
    exact dividedOutside '=' (item_unescaped (by decide) unescaped inner)

theorem quoted_alike_separators :
    (∃ args, parse "@ " "@ f(k = \"a\\\\,(b=\")" = .ok (some ⟨⟨"f"⟩, args, "@ f(k = \"a\\\\,(b=\")"⟩) ∧
      args = [⟨some "k", "a\\\\,(b="⟩]) ∧
    ∃ body, Enclosed "@ " "@ f(k = \"a\\\\,(b=\")" body ∧ (SeenAlike body ↔ ¬ EscapedQuote body) := by
  let v : List Char := ['a', '\\', ',', '(', 'b', '=']
  have led : ∀ c ∈ "@ ".toList.head?, isBlank c = false := by simp [isBlank]
  obtain ⟨args, read, _, single⟩ := (quoted_alike "@ ").1 ['f'] "k" v led (by decide) (by decide +kernel)
  have token : String.ofList (print "@ ".toList ['f'] [⟨some "k", String.ofList (escapeChars v)⟩]) =
      "@ f(k = \"a\\\\,(b=\")" := by decide +kernel
  have arg : String.ofList (escapeChars v) = "a\\\\,(b=" := by decide +kernel
  have tag : String.ofList (['f'].map tagChar) = "f" := by decide +kernel
  rw [token, tag] at read
  obtain ⟨body, enclosed, _, alike, _⟩ := (quoted_alike "@ ").2 _ _ read
  exact ⟨⟨args, read, arg ▸ single (by decide)⟩, body, enclosed, alike⟩

/-- Behind an escaped quote the division takes the rest of the value for unquoted. -/
theorem escaped_quote_divides :
    parse "@ " (String.ofList (print "@ ".toList ['f'] [⟨some "k", String.ofList (escapeChars ['a', '"', ',', 'b'])⟩])) =
      .ok (some ⟨⟨"f"⟩, [⟨some "k", "a\\"⟩, ⟨none, "b\""⟩], "@ f(k = \"a\\\",b\")"⟩) := by
  decide +kernel

end MarkerGen.Marker
