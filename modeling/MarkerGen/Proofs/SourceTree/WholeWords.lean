import MarkerGen.Proofs.Chars.Ascii
import MarkerGen.Proofs.Chars.Ends
import MarkerGen.Proofs.Chars.Words
import MarkerGen.SourceTree.Words

/-! Taking a declared name out of a text. The last occurrence is rejected where it is part of a longer word, and
the search goes on in front of it. Occurrences that overlap the rejected one are never looked at, and none of
them could stand alone, since a character of the rejected one follows it. -/
namespace MarkerGen.Words
open Chars

/-- No letter, digit or underscore of ASCII stands at the end of the one text or at the front of the other. -/
structure Alone (before after : List Char) : Prop where
  left : ∀ c ∈ before.getLast?, isWordChar c = false
  right : ∀ c ∈ after.head?, isWordChar c = false

/-- A word stands alone in a text, between the texts before and after it. -/
structure Stands (word text before after : List Char) : Prop extends Alone before after where
  split : text = before ++ (word ++ after)

/-- A word stands alone in a text, and nowhere later. -/
structure StandsLast (word text before after : List Char) : Prop extends Stands word text before after where
  latest : ∀ front back, Stands word text front back → front.length ≤ before.length

/-- The last occurrence of a word in a text, whatever is next to it. -/
structure Rightmost (word text before after : List Char) : Prop where
  split : text = before ++ (word ++ after)
  latest : ∀ front back, text = front ++ (word ++ back) → front.length ≤ before.length

variable {word window passed : List Char} {result : Option (List Char × List Char)}

/-- A search for a word that ends. It looks for the last occurrence in a window at the front of the text, and if
something is next to it, goes on in the window before it. -/
inductive Search (word : List Char) : (window passed : List Char) → Option (List Char × List Char) → Prop
  | absent {window passed : List Char} (missing : ¬ word <:+: window) : Search word window passed none
  | found {window passed before between : List Char} (last : Rightmost word window before between)
      (alone : Alone before (between ++ passed)) : Search word window passed (some (before, between ++ passed))
  | rejected {window passed before between : List Char} {result : Option (List Char × List Char)}
      (last : Rightmost word window before between) (joined : ¬ Alone before (between ++ passed))
      (earlier : Search word before (word ++ (between ++ passed)) result) : Search word window passed result

theorem alone_iff {before after : List Char} :
    Alone before after ↔ (before.getLast?.any isWordChar || after.head?.any isWordChar) = false := by
  have free (c? : Option Char) : c?.any isWordChar = false ↔ ∀ c ∈ c?, isWordChar c = false := by
    cases c? <;> simp
  rw [Bool.or_eq_false_iff, free, free]
  exact ⟨fun alone => ⟨alone.left, alone.right⟩, fun ⟨left, right⟩ => ⟨left, right⟩⟩

instance (before after : List Char) : Decidable (Alone before after) := decidable_of_iff _ alone_iff.symm

instance (word text before after : List Char) : Decidable (Stands word text before after) :=
  decidable_of_iff (Alone before after ∧ text = before ++ (word ++ after))
    ⟨fun ⟨alone, split⟩ => ⟨alone, split⟩, fun stands => ⟨stands.toAlone, stands.split⟩⟩

/-- The rest of a rejected occurrence is passed without looking at it. -/
theorem findLast_skipped (skipped rest after : List Char) :
    findLast word skipped.length after (skipped ++ rest) = findLast word 0 (skipped.reverse ++ after) rest := by
  induction skipped generalizing after with
  | nil => rfl
  | cons c skipped ih =>
    rw [List.cons_append, List.length_cons, findLast]
    · rw [Nat.add_sub_cancel, ih]
      simp
    · simp

theorem findLast_of_absent {c : Char} {rest : List Char} (absent : ¬ word <+: c :: rest) (after : List Char) :
    findLast word 0 after (c :: rest) = findLast word 0 (c :: after) rest := by
  rw [findLast.eq_def]
  dsimp only
  rw [afterLead?_eq_none_iff.mpr absent]
  rfl

theorem findLast_of_lead (nonempty : word ≠ []) (before after : List Char) :
    findLast word 0 after (word ++ before) =
      if before.head?.any isWordChar || after.head?.any isWordChar then findLast word 0 (word.reverse ++ after) before
      else some (before.reverse, after) := by
  obtain ⟨c, tail, rfl⟩ := List.exists_cons_of_ne_nil nonempty
  have lead : afterLead? (c :: tail) (c :: (tail ++ before)) = some before := afterLead?_eq_some_iff.mpr rfl
  have passed : findLast (c :: tail) tail.length (c :: after) (tail ++ before) = _ :=
    findLast_skipped tail before (c :: after)
  rw [List.cons_append, findLast.eq_def]
  dsimp only
  rw [lead]
  simp [passed]

/-- No occurrence of a word in the text made of two parts reaches into the second part. -/
def Cleared (word head tail : List Char) : Prop :=
  ∀ front back, head ++ tail = front ++ (word ++ back) → tail.length ≤ back.length

theorem cleared_nil (head : List Char) : Cleared word head [] := by simp [Cleared]

theorem Cleared.absent (nonempty : word ≠ []) {tail : List Char} (cleared : Cleared word [] tail) : ¬ word <:+: tail := by
  rintro ⟨front, back, split⟩
  have short := cleared front back (by simpa using split.symm)
  have size := congrArg List.length split
  have some := List.length_pos_of_ne_nil nonempty
  simp only [List.length_append] at size
  omega

theorem Cleared.rightmost {before tail : List Char} (cleared : Cleared word (before ++ word) tail) :
    Rightmost word (before ++ word ++ tail) before tail := by
  refine ⟨List.append_assoc _ _ _, fun front back split => ?_⟩
  have short := cleared front back split
  have size := congrArg List.length split
  simp only [List.length_append] at size
  omega

theorem Cleared.cons {c : Char} {head tail : List Char} (cleared : Cleared word (head ++ [c]) tail)
    (absent : ¬ word <:+ head ++ [c]) : Cleared word head (c :: tail) := by
  intro front back split
  have whole : head ++ [c] ++ tail = front ++ word ++ back := by simpa using split
  have short := cleared front back (by simpa using whole)
  refine Nat.lt_of_le_of_ne short fun same => absent ⟨front, ?_⟩
  exact (List.append_inj_left' whole same).symm

/-- The search backwards, one character after the other, finds what the search by windows finds. -/
theorem search_findLast (nonempty : word ≠ []) (passed rest between : List Char)
    (cleared : Cleared word rest.reverse between) :
    Search word (rest.reverse ++ between) passed (findLast word.reverse 0 (between ++ passed) rest) := by
  match rest with
  | [] => exact .absent (cleared.absent nonempty)
  | c :: rest =>
    by_cases lead : word.reverse <+: c :: rest
    · obtain ⟨before, split⟩ := lead
      -- With an empty word the next window would be this one again, and the search would not end.
      have shorter : before.length < (c :: rest).length := by
        have some := List.length_pos_of_ne_nil nonempty
        simp only [← split, List.length_append, List.length_reverse]
        omega
      have window : (c :: rest).reverse = before.reverse ++ word := by simp [← split]
      rw [window] at cleared ⊢
      rw [← split, findLast_of_lead (by simpa using nonempty), List.reverse_reverse]
      split
      next joined =>
        have earlier := search_findLast nonempty (word ++ (between ++ passed)) before [] (cleared_nil _)
        rw [List.append_nil, List.nil_append] at earlier
        refine .rejected cleared.rightmost ?_ earlier
        rw [alone_iff, List.getLast?_reverse, Bool.not_eq_false]
        exact joined
      next free =>
        refine .found cleared.rightmost (alone_iff.mpr ?_)
        rw [List.getLast?_reverse]
        exact Bool.eq_false_iff.mpr free
    · rw [List.reverse_cons] at cleared ⊢
      have unended : ¬ word <:+ rest.reverse ++ [c] := by
        rwa [← List.reverse_cons, ← List.reverse_prefix, List.reverse_reverse]
      have later := search_findLast nonempty passed rest (c :: between) (cleared.cons unended)
      rwa [findLast_of_absent lead, List.append_assoc]
termination_by rest.length
decreasing_by
  · exact shorter
  · exact Nat.lt_succ_self rest.length

theorem Search.stands (search : Search word window passed result) {before after : List Char}
    (some_eq : result = some (before, after)) : Stands word (window ++ passed) before after := by
  induction search with
  | absent => cases some_eq
  | found last alone =>
    cases some_eq
    exact ⟨alone, by simp [last.split]⟩
  | rejected last joined earlier ih =>
    have stands := ih some_eq
    simpa [last.split] using stands

theorem window_split {front back : List Char} (split : window ++ passed = front ++ (word ++ back))
    (fits : front.length + word.length ≤ window.length) : ∃ rest, window = front ++ (word ++ rest) := by
  have whole : front ++ word <+: window ++ passed := ⟨back, by rw [split, List.append_assoc]⟩
  obtain ⟨rest, inside⟩ := List.prefix_of_prefix_length_le whole (List.prefix_append window passed) (by simpa using fits)
  exact ⟨rest, by rw [← inside, List.append_assoc]⟩

/-- A word does not stand alone where it overlaps a later occurrence: that one has a character next to it. -/
theorem not_stands_of_overlap (plain : ∀ c ∈ word, isWordChar c = true) {text before after front back : List Char}
    (later : text = before ++ (word ++ after)) (first : front.length < before.length)
    (overlap : before.length < front.length + word.length) : ¬ Stands word text front back := by
  intro stands
  have within : front.length + word.length - before.length < word.length := by omega
  have next : back.head? = some word[front.length + word.length - before.length] := by
    have here : text[front.length + word.length]? = back.head? := by
      rw [stands.split, ← List.append_assoc, List.getElem?_append_right (by simp), List.head?_eq_getElem?]
      simp
    rw [← here, later, List.getElem?_append_right (by omega), List.getElem?_append_left within]
    exact List.getElem?_eq_getElem within
  have plainNext := plain _ (List.getElem_mem within)
  rw [stands.right _ next] at plainNext
  cases plainNext

theorem Search.latest (plain : ∀ c ∈ word, isWordChar c = true) (search : Search word window passed result)
    {front back : List Char} (stands : Stands word (window ++ passed) front back)
    (fits : front.length + word.length ≤ window.length) :
    ∃ before after, result = some (before, after) ∧ front.length ≤ before.length := by
  obtain ⟨rest, inside⟩ := window_split stands.split fits
  induction search generalizing rest with
  | absent missing => exact absurd ⟨front, rest, by rw [inside, List.append_assoc]⟩ missing
  | found last => exact ⟨_, _, rfl, last.latest front rest inside⟩
  | @rejected window passed before between result last joined earlier ih =>
    have whole : window ++ passed = before ++ (word ++ (between ++ passed)) := by simp [last.split]
    rw [whole] at stands
    -- The word stands in the next window, across its end, or where it was rejected.
    rcases Nat.lt_or_eq_of_le (last.latest front rest inside) with first | same
    · by_cases within : front.length + word.length ≤ before.length
      · obtain ⟨rest, inside⟩ := window_split stands.split within
        exact ih stands within rest inside
      · exact absurd stands (not_stands_of_overlap plain rfl first (by omega))
    · obtain ⟨rfl, behind⟩ := List.append_inj stands.split same.symm
      exact absurd (List.append_cancel_left behind ▸ stands.toAlone) joined

theorem standsLast_of_search (plain : ∀ c ∈ word, isWordChar c = true) {text before after : List Char}
    (search : Search word text [] (some (before, after))) : StandsLast word text before after := by
  have stands := search.stands rfl
  rw [List.append_nil] at stands
  refine ⟨stands, fun front back other => ?_⟩
  have fits : front.length + word.length ≤ text.length := by
    simp [other.split]
  rw [← List.append_nil text] at other
  obtain ⟨_, _, same, latest⟩ := search.latest plain other fits
  cases same
  exact latest

theorem not_stands_of_search (plain : ∀ c ∈ word, isWordChar c = true) {text : List Char}
    (search : Search word text [] none) (before after : List Char) : ¬ Stands word text before after := by
  intro stands
  have fits : before.length + word.length ≤ text.length := by
    simp [stands.split]
  rw [← List.append_nil text] at stands
  obtain ⟨_, _, found, _⟩ := search.latest plain stands fits
  cases found

/-- The word that is taken out is missing afterwards, whatever is done to the blanks. -/
theorem squash_ne_text (nonempty : word ≠ []) (plain : ∀ c ∈ word, isWordChar c = true) (before after : List Char) :
    squash (before ++ ' ' :: after) ≠ before ++ (word ++ after) := by
  intro same
  have solid : word.filter (!isBlank ·) = word :=
    List.filter_eq_self.mpr fun c member => by simp [wordChar_solid (plain c member)]
  have kept := filter_squash (before ++ ' ' :: after)
  rw [same] at kept
  exact nonempty (by simpa [solid, show isBlank ' ' = true from rfl] using kept)

/-- The search for a name ends. The text is left as it is exactly where the name stands alone nowhere in it;
otherwise a space takes the place of the name where it stands alone last, and blanks are collapsed. The space shows
if no blank or end of the text is next to the name. -/
theorem removeLast_stands {word : List Char} (nonempty : word ≠ []) (plain : ∀ c ∈ word, isWordChar c = true)
    (text : List Char) :
    (∃ result, Search word text [] result ∧
      removeLast text word = (result.map fun (before, after) => squash (before ++ ' ' :: after)).getD text) ∧
    (removeLast text word = text ↔ ∀ before after, ¬ Stands word text before after) ∧
    ∀ front back, Stands word text front back → ∃ before after, StandsLast word text before after ∧
      removeLast text word = squash (before ++ ' ' :: after) ∧
      (removeLast text word = squash (before ++ after) ↔ Parted before after) := by
  have search : Search word text [] (findLast word.reverse 0 [] text.reverse) := by
    simpa using search_findLast nonempty [] text.reverse [] (cleared_nil _)
  cases found : findLast word.reverse 0 [] text.reverse with
  | none =>
    rw [found] at search
    have unchanged : removeLast text word = text := by rw [removeLast, found]
    have never := not_stands_of_search plain search
    exact ⟨⟨none, search, unchanged⟩, iff_of_true unchanged never,
      fun front back stands => absurd stands (never front back)⟩
  | some parts =>
    obtain ⟨before, after⟩ := parts
    rw [found] at search
    have last := standsLast_of_search plain search
    have removed : removeLast text word = squash (before ++ ' ' :: after) := by rw [removeLast, found]
    have changed : removeLast text word ≠ text := by
      rw [removed, last.split]
      exact squash_ne_text nonempty plain before after
    refine ⟨⟨_, search, removed⟩, iff_of_false changed fun never => never before after last.toStands, ?_⟩
    intro front back _
    exact ⟨before, after, last, removed, by rw [removed, squash_space_iff]⟩

theorem removeLast_stands_overlapped :
    let word := "aa".toList
    let text := "(*aa)(aaaa& aa_)".toList
    word ≠ [] ∧ (∀ c ∈ word, isWordChar c = true) ∧ Stands word text "(*".toList ")(aaaa& aa_)".toList ∧
      removeLast text word ≠ text ∧ removeLast text word = "(* )(aaaa& aa_)".toList := by
  intro word text
  have nonempty : word ≠ [] := by decide
  have plain : ∀ c ∈ word, isWordChar c = true := List.all_eq_true.mp (by decide)
  have stands : Stands word text "(*".toList ")(aaaa& aa_)".toList := by decide +kernel
  have changed : removeLast text word ≠ text := fun same =>
    (removeLast_stands nonempty plain text).2.1.mp same _ _ stands
  exact ⟨nonempty, plain, stands, changed, by decide +kernel⟩

/-- The name of a function pointer leaves a space between the star and the parenthesis. -/
theorem removeLast_leaves_space :
    (∀ c ∈ "cb".toList, isWordChar c = true) ∧
      StandsLast "cb".toList "void (*cb)(void)".toList "void (*".toList ")(void)".toList ∧
      removeLast "void (*cb)(void)".toList "cb".toList = "void (* )(void)".toList ∧
      squash ("void (*".toList ++ ")(void)".toList) = "void (*)(void)".toList := by
  have plain : ∀ c ∈ "cb".toList, isWordChar c = true := List.all_eq_true.mp (by decide)
  have found : findLast "cb".toList.reverse 0 [] "void (*cb)(void)".toList.reverse =
      some ("void (*".toList, ")(void)".toList) := by
    decide +kernel
  have search := @search_findLast "cb".toList (by decide +kernel) [] "void (*cb)(void)".toList.reverse [] (cleared_nil _)
  rw [List.reverse_reverse, List.append_nil, List.append_nil, found] at search
  exact ⟨plain, standsLast_of_search plain search, by decide +kernel, by decide +kernel⟩

end MarkerGen.Words
