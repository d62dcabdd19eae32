import MarkerGen.Json.Printer
import MarkerGen.Json.Reader

/-! What is written as JSON is read back. The text of a value is cut into the tokens of the value,
whatever blanks stand between them, and these tokens are put together to the value again. -/
namespace MarkerGen.Json

/-- Whether a text is a number and has only the characters of one. -/
def isLiteral (literal : List Char) : Bool :=
  isNumber literal && literal.all isNumberChar && literal.head?.any fun c => c.isDigit || c == '-'

mutual
/-- Strings have a text, and numbers are written as such. -/
def spelled : Json → Bool
  | .null | .bool _ => true
  | .num literal => isLiteral literal.toList
  | .str text => text.isSome
  | .arr items => spelledItems items
  | .obj fields => spelledFields fields
def spelledItems : List Json → Bool
  | [] => true
  | item :: items => item.spelled && spelledItems items
def spelledFields : List (Option String × Json) → Bool
  | [] => true
  | (name, value) :: fields => name.isSome && value.spelled && spelledFields fields
end

def comma (last : Bool) : List Token := if last then [] else [.comma]

mutual
/-- The tokens of a value. -/
def tokens : Json → List Token
  | .null => [.scalar .null]
  | .bool value => [.scalar (.bool value)]
  | .num literal => [.scalar (.num literal)]
  | .str text => [.scalar (.str text)]
  | .arr items => .openBracket :: (itemTokens items ++ [.closeBracket])
  | .obj fields => .openBrace :: (fieldTokens fields ++ [.closeBrace])
def itemTokens : List Json → List Token
  | [] => []
  | item :: items => item.tokens ++ (comma items.isEmpty ++ itemTokens items)
def fieldTokens : List (Option String × Json) → List Token
  | [] => []
  | (name, value) :: fields =>
    .scalar (.str name) :: .colon :: (value.tokens ++ (comma fields.isEmpty ++ fieldTokens fields))
end

theorem lexFrom_step {state next : Lexing} {c : Char} {found : List Token} (rest : List Char)
    (step : lexStep state c = some (found, next)) : lexFrom state (c :: rest) = (lexFrom next rest).map (found ++ ·) := by
  rw [lexFrom, step]

theorem lexFrom_quiet {state next : Lexing} {c : Char} (rest : List Char) (step : lexStep state c = some ([], next)) :
    lexFrom state (c :: rest) = lexFrom next rest := by
  rw [lexFrom_step rest step]
  simp

/-- What comes right after a value. -/
def Follows (rest : List Char) : Prop := ∀ c ∈ rest.head?, c = ',' ∨ c = ']' ∨ c = '\x7d' ∨ c = '\n'

theorem lexFrom_number {read : List Char} {token : Token} (ending : numberToken? read.reverse = some token)
    {rest : List Char} (follows : Follows rest) :
    lexFrom (.number read) rest = (lexFrom .idle rest).map (token :: ·) := by
  cases rest with
  | nil => simp [lexFrom, lexEnd, ending]
  | cons c rest =>
    rcases follows c rfl with rfl | rfl | rfl | rfl <;>
      simp [lexFrom, lexStep, isNumberChar, ending, begin?, Function.comp_def]

theorem lexFrom_word {read : List Char} {token : Token} (ending : wordToken? read.reverse = some token)
    {rest : List Char} (follows : Follows rest) : lexFrom (.word read) rest = (lexFrom .idle rest).map (token :: ·) := by
  cases rest with
  | nil => simp [lexFrom, lexEnd, ending]
  | cons c rest =>
    rcases follows c rfl with rfl | rfl | rfl | rfl <;>
      simp [lexFrom, lexStep, ending, begin?, Function.comp_def]

theorem lexFrom_letters {letters : List Char} (plain : letters.all Char.isAlpha = true) (read rest : List Char) :
    lexFrom (.word read) (letters ++ rest) = lexFrom (.word (letters.reverse ++ read)) rest := by
  induction letters generalizing read with
  | nil => rfl
  | cons c letters ih =>
    obtain ⟨first, others⟩ := Bool.and_eq_true_iff.mp plain
    rw [List.cons_append, lexFrom_quiet _ (by rw [lexStep, if_pos first]), ih others]
    simp

theorem lexFrom_name {c : Char} {letters : List Char} {token : Token} (start : begin? c = some ([], .word [c]))
    (plain : letters.all Char.isAlpha = true) (named : wordToken? (c :: letters) = some token) {rest : List Char}
    (follows : Follows rest) : lexFrom .idle (c :: letters ++ rest) = (lexFrom .idle rest).map (token :: ·) := by
  have first : lexStep .idle c = some ([], .word [c]) := start
  rw [List.cons_append, lexFrom_quiet _ first, lexFrom_letters plain]
  exact lexFrom_word (by simpa using named) follows

theorem lexFrom_numberChars {digits : List Char} (plain : digits.all isNumberChar = true) (read rest : List Char) :
    lexFrom (.number read) (digits ++ rest) = lexFrom (.number (digits.reverse ++ read)) rest := by
  induction digits generalizing read with
  | nil => rfl
  | cons c digits ih =>
    obtain ⟨first, others⟩ := Bool.and_eq_true_iff.mp plain
    rw [List.cons_append, lexFrom_quiet _ (by rw [lexStep, if_pos first]), ih others]
    simp

theorem begin?_number {c : Char} (first : (c.isDigit || c == '-') = true) : begin? c = some ([], .number [c]) := by
  unfold begin?
  split <;> exact if_pos first

theorem lexFrom_literal {literal : List Char} (good : isLiteral literal = true) {rest : List Char} (follows : Follows rest) :
    lexFrom .idle (literal ++ rest) = (lexFrom .idle rest).map (.scalar (.num (String.ofList literal)) :: ·) := by
  obtain ⟨both, first⟩ := Bool.and_eq_true_iff.mp good
  obtain ⟨number, plain⟩ := Bool.and_eq_true_iff.mp both
  cases literal with
  | nil => cases first
  | cons c digits =>
    have start : lexStep .idle c = some ([], .number [c]) := begin?_number first
    rw [List.cons_append, lexFrom_quiet _ start, lexFrom_numberChars (Bool.and_eq_true_iff.mp plain).2]
    exact lexFrom_number (by simp [numberToken?, number]) follows

theorem lexFrom_spaces (count : Nat) (rest : List Char) :
    lexFrom .idle (List.replicate count ' ' ++ rest) = lexFrom .idle rest := by
  induction count with
  | zero => rfl
  | succ count ih =>
    rw [List.replicate_succ, List.cons_append, lexFrom_quiet _ rfl, ih]

theorem lexFrom_closing (depth : Option Nat) (rest : List Char) :
    lexFrom .idle (closing depth ++ rest) = lexFrom .idle rest := by
  cases depth with
  | none => rfl
  | some depth => exact (lexFrom_quiet _ rfl).trans (lexFrom_spaces (2 * depth) rest)

theorem hexValue?_hexDigit : ∀ n < 16, hexValue? (hexDigit n) = some n := by decide

theorem lexFrom_hexEscape {c : Char} (small : c.toNat < 32) (read : List Unit16) (rest : List Char) :
    lexFrom (.literal read) (['\\', 'u', '0', '0', hexDigit (c.toNat / 16), hexDigit (c.toNat % 16)] ++ rest) =
      lexFrom (.literal (.char c :: read)) rest := by
  have high : lexStep (.hex read 2 0) (hexDigit (c.toNat / 16)) = some ([], .hex read 3 (c.toNat / 16)) := by
    simp [lexStep, hexValue?_hexDigit _ (by omega : c.toNat / 16 < 16)]
  have code : c.toNat / 16 * 16 + c.toNat % 16 = c.toNat := by omega
  have low : lexStep (.hex read 3 (c.toNat / 16)) (hexDigit (c.toNat % 16)) = some ([], .literal (.char c :: read)) := by
    have plain : ¬ (0xD800 ≤ c.toNat ∧ c.toNat < 0xE000) := by omega
    simp [lexStep, hexValue?_hexDigit _ (by omega : c.toNat % 16 < 16), code, unit16, plain, Char.ofNat_toNat]
  simp only [List.cons_append, List.nil_append]
  rw [lexFrom_quiet _ rfl, lexFrom_quiet _ rfl, lexFrom_quiet _ rfl, lexFrom_quiet _ rfl]
  change lexFrom (.hex read 2 0) _ = _
  rw [lexFrom_quiet _ high, lexFrom_quiet _ low]

theorem lexFrom_escapeChar (c : Char) (read : List Unit16) (rest : List Char) :
    lexFrom (.literal read) (escapeChar c ++ rest) = lexFrom (.literal (.char c :: read)) rest := by
  have simple (shown : Char) (meant : unescape? shown = some c) :
      lexFrom (.literal read) (['\\', shown] ++ rest) = lexFrom (.literal (.char c :: read)) rest := by
    have notU : shown ≠ 'u' := by
      rintro rfl
      cases meant
    rw [List.cons_append, lexFrom_quiet _ rfl, List.cons_append, lexFrom_quiet]
    · rfl
    · rw [lexStep, if_neg notU, meant]
      rfl
  have ofCode (code : Nat) (same : c.toNat = code) : Char.ofNat code = c := by
    rw [← same]
    exact Char.ofNat_toNat c
  unfold escapeChar
  split
  next same => exact simple '"' (by rw [same]; rfl)
  split
  next same => exact simple '\\' (by rw [same]; rfl)
  split
  next same => exact simple 'n' (by rw [same]; rfl)
  split
  next same => exact simple 'r' (by rw [same]; rfl)
  split
  next same => exact simple 't' (by rw [same]; rfl)
  split
  next code => exact simple 'b' (congrArg some (ofCode 8 code))
  split
  next code => exact simple 'f' (congrArg some (ofCode 12 code))
  split
  next small => exact lexFrom_hexEscape small read rest
  next quote backslash _ _ _ _ _ large =>
    exact lexFrom_quiet _ (by rw [lexStep, if_neg quote, if_neg backslash, if_neg large])

theorem lexFrom_escaped (chars : List Char) (read : List Unit16) (rest : List Char) :
    lexFrom (.literal read) (chars.flatMap escapeChar ++ rest) =
      lexFrom (.literal ((chars.map Unit16.char).reverse ++ read)) rest := by
  induction chars generalizing read with
  | nil => rfl
  | cons c chars ih =>
    rw [List.flatMap_cons, List.append_assoc, lexFrom_escapeChar, ih]
    simp

theorem join16_chars (chars : List Char) : join16 (chars.map Unit16.char) = some chars := by
  induction chars with
  | nil => rfl
  | cons c chars ih =>
    rw [List.map_cons, join16, ih]
    rfl

theorem lexFrom_quote (text : String) (rest : List Char) :
    lexFrom .idle (quote text ++ rest) = (lexFrom .idle rest).map (.scalar (.str (some text)) :: ·) := by
  have close : lexStep (.literal ((text.toList.map Unit16.char).reverse ++ [])) '"' =
      some ([.scalar (.str (some text))], .idle) := by
    rw [lexStep, if_pos rfl, List.append_nil, List.reverse_reverse, join16_chars, Option.map_some, String.ofList_toList]
  rw [quote, List.append_assoc, List.cons_append, lexFrom_quiet _ rfl, lexFrom_escaped]
  exact lexFrom_step rest close

theorem follows_comma (rest : List Char) : Follows (',' :: rest) := by
  intro c head
  exact .inl (Option.some.inj head).symm

theorem follows_closing (depth : Option Nat) {c : Char} (bracket : c = ']' ∨ c = '\x7d') (rest : List Char) :
    Follows (closing depth ++ c :: rest) := by
  intro d head
  cases depth with
  | none =>
    cases head
    exact .inr (bracket.imp_right .inl)
  | some depth =>
    cases head
    exact .inr (.inr (.inr rfl))

theorem follows_separator {α : Type} (others : List α) {back rest : List Char} (follows : Follows rest)
    (empty : others = [] → back = []) : Follows (separator others.isEmpty ++ (back ++ rest)) := by
  cases others with
  | nil =>
    rw [empty rfl]
    exact follows
  | cons _ _ => exact follows_comma _

theorem lexFrom_separator (last : Bool) (rest : List Char) :
    lexFrom .idle (separator last ++ rest) = (lexFrom .idle rest).map (comma last ++ ·) := by
  cases last with
  | true => simp [separator, comma]
  | false =>
    change lexFrom .idle (',' :: rest) = _
    rw [lexFrom_step _ rfl]
    rfl

theorem lexFrom_colon (spaced : Bool) (rest : List Char) :
    lexFrom .idle ((if spaced then [':', ' '] else [':']) ++ rest) = (lexFrom .idle rest).map (.colon :: ·) := by
  cases spaced with
  | true =>
    change lexFrom .idle (':' :: ' ' :: rest) = _
    rw [lexFrom_step _ rfl, lexFrom_quiet _ rfl]
    rfl
  | false =>
    change lexFrom .idle (':' :: rest) = _
    rw [lexFrom_step _ rfl]
    rfl

mutual
/-- The text of a value is cut into its tokens. -/
theorem lexFrom_write : ∀ (v : Json), v.spelled = true → ∀ (depth : Option Nat) (rest : List Char), Follows rest →
    lexFrom .idle (v.write depth ++ rest) = (lexFrom .idle rest).map (v.tokens ++ ·)
  | .null, _, _, _, follows => @lexFrom_name 'n' "ull".toList _ rfl rfl rfl _ follows
  | .bool true, _, _, _, follows => @lexFrom_name 't' "rue".toList _ rfl rfl rfl _ follows
  | .bool false, _, _, _, follows => @lexFrom_name 'f' "alse".toList _ rfl rfl rfl _ follows
  | .num literal, good, _, rest, follows => by
    have read := lexFrom_literal good follows
    rw [String.ofList_toList] at read
    rw [write, read]
    rfl
  | .str (some text), _, _, rest, _ => by
    rw [write]
    exact lexFrom_quote text rest
  | .arr [], _, _, rest, _ => by
    change lexFrom .idle ('[' :: ']' :: rest) = _
    rw [lexFrom_step _ rfl, lexFrom_step _ rfl, Option.map_map]
    rfl
  | .arr (item :: items), good, depth, rest, _ => by
    have inside := lexFrom_writeItems (item :: items) good (depth.map (· + 1)) _ (follows_closing depth (.inl rfl) rest)
    rw [write, List.append_assoc, List.append_assoc, List.cons_append, lexFrom_step _ rfl]
    rw [List.singleton_append, inside, lexFrom_closing, lexFrom_step rest rfl, tokens]
    simp [Function.comp_def]
  | .obj [], _, _, rest, _ => by
    change lexFrom .idle ('\x7b' :: '\x7d' :: rest) = _
    rw [lexFrom_step _ rfl, lexFrom_step _ rfl, Option.map_map]
    rfl
  | .obj (field :: fields), good, depth, rest, _ => by
    have inside := lexFrom_writeFields (field :: fields) good (depth.map (· + 1)) _ (follows_closing depth (.inr rfl) rest)
    rw [write, List.append_assoc, List.append_assoc, List.cons_append, lexFrom_step _ rfl]
    rw [List.singleton_append, inside, lexFrom_closing, lexFrom_step rest rfl, tokens]
    simp [Function.comp_def]

theorem lexFrom_writeItems : ∀ (items : List Json), spelledItems items = true → ∀ (depth : Option Nat) (rest : List Char),
    Follows rest → lexFrom .idle (writeItems depth items ++ rest) = (lexFrom .idle rest).map (itemTokens items ++ ·)
  | [], _, _, _, _ => by simp [writeItems, itemTokens]
  | item :: items, good, depth, rest, follows => by
    obtain ⟨first, others⟩ := Bool.and_eq_true_iff.mp good
    have later := lexFrom_writeItems items others depth rest follows
    rw [writeItems, List.append_assoc, List.append_assoc, List.append_assoc, lexFrom_closing]
    rw [lexFrom_write item first depth _ (follows_separator items follows (by rintro rfl; rfl)), lexFrom_separator, later, itemTokens]
    simp [Function.comp_def]

theorem lexFrom_writeFields : ∀ (fields : List (Option String × Json)), spelledFields fields = true →
    ∀ (depth : Option Nat) (rest : List Char), Follows rest →
      lexFrom .idle (writeFields depth fields ++ rest) = (lexFrom .idle rest).map (fieldTokens fields ++ ·)
  | [], _, _, _, _ => by simp [writeFields, fieldTokens]
  | (none, value) :: fields, good, depth, rest, follows => by simp [spelledFields] at good
  | (some name, value) :: fields, good, depth, rest, follows => by
    obtain ⟨first, others⟩ := Bool.and_eq_true_iff.mp good
    have later := lexFrom_writeFields fields others depth rest follows
    rw [writeFields]
    simp only [List.append_assoc]
    rw [lexFrom_closing, Option.getD_some, lexFrom_quote, lexFrom_colon]
    rw [lexFrom_write value first depth _ (follows_separator fields follows (by rintro rfl; rfl)), lexFrom_separator, later, fieldTokens]
    simp [Function.comp_def]
end

def resume (state : Parsing) (rest : List Token) : Option Parsing := rest.foldlM parseStep state

theorem resume_cons {state next : Parsing} {token : Token} (rest : List Token) (step : parseStep state token = some next) :
    resume state (token :: rest) = resume next rest := by
  rw [resume, List.foldlM_cons, step]
  rfl

mutual
/-- The tokens of a value are put together to the value. -/
theorem resume_tokens : ∀ (v : Json) (close : Bool) (frames : List Frame) (rest : List Token),
    resume (.value close frames) (v.tokens ++ rest) = resume (.complete v frames) rest
  | .null, _, _, _ | .bool _, _, _, _ | .num _, _, _, _ | .str _, _, _, _ => by
    rw [tokens, List.singleton_append]
    exact resume_cons _ (by rfl)
  | .arr [], _, _, rest => by
    change resume _ (.openBracket :: .closeBracket :: rest) = _
    rw [resume_cons _ rfl, resume_cons _ rfl]
  | .arr (item :: items), _, frames, rest => by
    rw [tokens, List.cons_append, resume_cons _ rfl, List.append_assoc, List.singleton_append]
    exact resume_itemTokens (item :: items) (by simp) true [] frames rest
  | .obj [], _, _, rest => by
    change resume _ (.openBrace :: .closeBrace :: rest) = _
    rw [resume_cons _ rfl, resume_cons _ rfl]
  | .obj (field :: fields), _, frames, rest => by
    rw [tokens, List.cons_append, resume_cons _ rfl, List.append_assoc, List.singleton_append]
    exact resume_fieldTokens (field :: fields) (by simp) true [] frames rest

theorem resume_itemTokens : ∀ items : List Json, items ≠ [] → ∀ (close : Bool) (before : List Json) (frames : List Frame)
    (rest : List Token),
    resume (.value close (.array before :: frames)) (itemTokens items ++ .closeBracket :: rest) =
      resume (.complete (.arr (before.reverse ++ items)) frames) rest
  | [], nonempty, _, _, _, _ => absurd rfl nonempty
  | [item], _, close, before, frames, rest => by
    rw [itemTokens, List.append_assoc, resume_tokens item]
    change resume _ (.closeBracket :: rest) = _
    rw [resume_cons _ rfl, List.reverse_cons]
  | item :: next :: items, _, close, before, frames, rest => by
    rw [itemTokens, List.append_assoc, resume_tokens item]
    change resume _ (.comma :: (itemTokens (next :: items) ++ .closeBracket :: rest)) = _
    rw [resume_cons _ rfl, resume_itemTokens (next :: items) (by simp)]
    simp

theorem resume_fieldTokens : ∀ fields : List (Option String × Json), fields ≠ [] → ∀ (close : Bool)
    (before : List (Option String × Json)) (frames : List Frame) (rest : List Token),
    resume (.name close before frames) (fieldTokens fields ++ .closeBrace :: rest) =
      resume (.complete (.obj (before.reverse ++ fields)) frames) rest
  | [], nonempty, _, _, _, _ => absurd rfl nonempty
  | [(name, value)], _, close, before, frames, rest => by
    rw [fieldTokens, List.cons_append, resume_cons _ rfl, List.cons_append, resume_cons _ rfl, List.append_assoc,
      resume_tokens value]
    change resume _ (.closeBrace :: rest) = _
    rw [resume_cons _ rfl, List.reverse_cons]
  | (name, value) :: next :: fields, _, close, before, frames, rest => by
    rw [fieldTokens, List.cons_append, resume_cons _ rfl, List.cons_append, resume_cons _ rfl, List.append_assoc,
      resume_tokens value]
    change resume _ (.comma :: (fieldTokens (next :: fields) ++ .closeBrace :: rest)) = _
    rw [resume_cons _ rfl, resume_fieldTokens (next :: fields) (by simp)]
    simp
end

theorem parseTokens_tokens (v : Json) : parseTokens v.tokens = some v := by
  have whole := resume_tokens v false [] []
  rw [List.append_nil] at whole
  change resume _ v.tokens = some (.complete v []) at whole
  rw [resume] at whole
  rw [parseTokens, whole]

/-- A value is read back from its text, alone or with a line break after it. -/
theorem parse?_write {v : Json} (good : v.spelled = true) (depth : Option Nat) :
    parse? (String.ofList (v.write depth ++ ['\n'])) = some v := by
  have cut := lexFrom_write v good depth ['\n'] fun c head => .inr (.inr (.inr (Option.some.inj head).symm))
  have ending : lexFrom .idle ['\n'] = some [] := rfl
  rw [parse?, String.toList_ofList, cut, ending]
  simpa using parseTokens_tokens v

end MarkerGen.Json
