import Mathlib.Data.List.Basic
import Mathlib.Data.List.TakeWhile
import MarkerGen.Path
import MarkerGen.Proofs.Chars.Split

/-! The components of joined paths and of the rest below a base. The text between slashes
decides everything: a path is confined when it is relative and no such text is `..`. -/
namespace MarkerGen.Path

/-- The texts between the slashes of a path. An absolute path starts with an empty one. -/
def parts (p : Path) : List (List Char) := Chars.splitAt (· == '/') p.text.toList

/-- What texts between slashes stand for after the first one. -/
def inner (parts : List (List Char)) : List Component := parts.filterMap (component? false)

theorem parts_ne_nil (p : Path) : p.parts ≠ [] := Chars.splitAt_ne_nil _

theorem parts_free {p : Path} {part : List Char} (member : part ∈ p.parts) : ∀ c ∈ part, (c == '/') = false :=
  Chars.free_of_mem_splitAt member

theorem isAbsolute_iff {p : Path} : p.isAbsolute = true ↔ ∃ rest, p.text.toList = '/' :: rest := by
  rw [isAbsolute, beq_iff_eq, List.head?_eq_some_iff]

theorem parts_of_absolute {p : Path} {rest : List Char} (text : p.text.toList = '/' :: rest) :
    p.parts = [] :: Chars.splitAt (· == '/') rest := by
  rw [parts, text, Chars.splitAt]
  rfl

theorem filterMap_pieces (parts : List (List Char)) :
    (parts.map fun piece => (piece, component? false piece)).filterMap (·.2) = inner parts := by
  rw [List.filterMap_map]
  rfl

/-- The root of an absolute path, then what the first part stands for, then the others. -/
theorem components_eq {p : Path} {first : List Char} {rest : List (List Char)} (split : p.parts = first :: rest) :
    p.components = (if p.isAbsolute then [.root] else []) ++ ((component? true first).toList ++ inner rest) := by
  unfold components pieces
  by_cases absolute : p.isAbsolute = true
  · obtain ⟨below, text⟩ := isAbsolute_iff.mp absolute
    rw [parts_of_absolute text] at split
    obtain ⟨rfl, rfl⟩ := List.cons.inj split
    rw [if_pos absolute, text]
    exact congrArg _ (filterMap_pieces _)
  · rw [if_neg absolute]
    split
    next below text => exact absurd (isAbsolute_iff.mpr ⟨below, text⟩) absolute
    next =>
      have texts : Chars.splitAt (· == '/') p.text.toList = first :: rest := split
      rw [texts]
      dsimp only
      rw [List.filterMap_cons, filterMap_pieces]
      cases component? true first <;> rfl

theorem component?_up {first : Bool} {part : List Char} : component? first part = some .up ↔ part = ['.', '.'] := by
  unfold component?
  by_cases empty : part = []
  · simp [empty]
  · by_cases dot : part = ['.']
    · cases first <;> simp [dot]
    · by_cases up : part = ['.', '.'] <;> simp [empty, dot, up]

theorem component?_ne_root (first : Bool) (part : List Char) : component? first part ≠ some .root := by
  unfold component?
  split
  · simp
  · split
    · split <;> simp
    · split <;> simp

/-- A path is confined when it is relative and none of its parts leads up. -/
theorem isConfined_iff {p : Path} : p.isConfined = true ↔ p.isAbsolute = false ∧ ['.', '.'] ∉ p.parts := by
  cases split : p.parts with
  | nil => exact absurd split (parts_ne_nil p)
  | cons first rest =>
    have up : Component.up ∈ (component? true first).toList ++ inner rest ↔ ['.', '.'] ∈ first :: rest := by
      simp only [inner, List.mem_append, Option.mem_toList, component?_up, List.mem_filterMap, exists_eq_right,
        List.mem_cons]
      rw [eq_comm]
    have root : Component.root ∉ (component? true first).toList ++ inner rest := by
      simp [inner, component?_ne_root]
    rw [isConfined, List.all_eq_true, components_eq split]
    by_cases absolute : p.isAbsolute = true
    · simp [absolute]
    · rw [if_neg absolute, List.nil_append]
      simp only [absolute, true_and, ← up]
      constructor
      · intro all inside
        simpa using all _ inside
      · intro none c inside
        have notRoot : c ≠ .root := fun equal => root (equal ▸ inside)
        have notUp : c ≠ .up := fun equal => none (equal ▸ inside)
        simp [notRoot, notUp]

theorem join_text {base other : Path} (relative : other.isAbsolute = false) (nonempty : base.text.toList ≠ []) :
    ∃ front, (base.join other).text.toList = front ++ '/' :: other.text.toList ∧
      (base.text.toList = front ++ ['/'] ∨ base.text.toList = front) := by
  unfold join
  rw [if_neg (by simp [relative])]
  simp only [nonempty, false_or, String.toList_ofList]
  by_cases slash : base.text.toList.getLast? = some '/'
  · obtain ⟨front, text⟩ := List.getLast?_eq_some_iff.mp slash
    refine ⟨front, ?_, .inl text⟩
    rw [if_pos slash, text]
    simp
  · exact ⟨base.text.toList, by rw [if_neg slash]; simp, .inr rfl⟩

theorem join_of_empty {base other : Path} (empty : base.text.toList = []) : base.join other = other := by
  unfold join
  split
  · rfl
  · simp [empty]

/-- The parts of a joined path: those of the base, less an empty one at its end, and the others. -/
theorem parts_join {base other : Path} (relative : other.isAbsolute = false) (nonempty : base.text.toList ≠ []) :
    ∃ first rest, (base.join other).parts = first :: (rest ++ other.parts) ∧
      (base.parts = first :: (rest ++ [[]]) ∨ base.parts = first :: rest) := by
  obtain ⟨front, joined, ending⟩ := join_text relative nonempty
  cases split : Chars.splitAt (· == '/') front with
  | nil => exact absurd split (Chars.splitAt_ne_nil front)
  | cons first rest =>
    refine ⟨first, rest, ?_, ?_⟩
    · rw [parts, joined, Chars.splitAt_append_cons _ _ (by rfl), split]
      rfl
    · rcases ending with slash | plain
      · left
        rw [parts, slash, Chars.splitAt_append_cons _ _ (by rfl), split]
        rfl
      · right
        rw [parts, plain, split]

theorem isAbsolute_join {base other : Path} (relative : other.isAbsolute = false) (nonempty : base.text.toList ≠ []) :
    (base.join other).isAbsolute = base.isAbsolute := by
  obtain ⟨front, joined, ending⟩ := join_text relative nonempty
  unfold isAbsolute
  rw [joined]
  rcases ending with slash | plain
  · rw [slash]
    cases front <;> rfl
  · rw [plain]
    cases front with
    | nil => exact absurd plain nonempty
    | cons c front => rfl

theorem inner_cons (part : List Char) (rest : List (List Char)) :
    inner (part :: rest) = (component? false part).toList ++ inner rest := by
  rw [inner, List.filterMap_cons]
  cases component? false part <;> rfl

theorem inner_append (a b : List (List Char)) : inner (a ++ b) = inner a ++ inner b := List.filterMap_append

/-- Below a base, a dot in front of a relative path stands for nothing. -/
theorem components_join {base other : Path} (relative : other.isAbsolute = false) (nonempty : base.text.toList ≠ []) :
    (base.join other).components = base.components ++ inner other.parts := by
  obtain ⟨first, rest, joined, ending⟩ := parts_join relative nonempty
  rw [components_eq joined, isAbsolute_join relative nonempty, inner_append]
  rcases ending with slash | plain
  · rw [components_eq slash, inner_append]
    simp [inner, component?]
  · rw [components_eq plain]
    simp

theorem isConfined_join {base other : Path} (relative : other.isAbsolute = false) :
    (base.join other).isConfined = true ↔ base.isConfined = true ∧ ['.', '.'] ∉ other.parts := by
  by_cases empty : base.text.toList = []
  · have confined : base.isConfined = true := by
      rw [isConfined_iff, isAbsolute, parts, empty]
      simp [Chars.splitAt]
    rw [join_of_empty empty, isConfined_iff]
    simp [relative, confined]
  · obtain ⟨first, rest, joined, ending⟩ := parts_join relative empty
    rw [isConfined_iff, isConfined_iff, isAbsolute_join relative empty, joined]
    rcases ending with slash | plain
    · rw [slash]
      simp [and_assoc]
    · rw [plain]
      simp [and_assoc]

/-- A text that stands for a name wherever it is written between slashes. -/
def Proper (part : List Char) : Prop := part ≠ [] ∧ part ≠ ['.'] ∧ part ≠ ['.', '.'] ∧ ∀ c ∈ part, (c == '/') = false

theorem component?_of_proper {part : List Char} (proper : Proper part) (first : Bool) :
    component? first part = some (.name (String.ofList part)) := by
  obtain ⟨nonempty, notDot, notUp, _⟩ := proper
  simp [component?, nonempty, notDot, notUp]

theorem component?_name {first : Bool} {part : List Char} {text : String}
    (named : component? first part = some (.name text)) :
    text = String.ofList part ∧ part ≠ [] ∧ part ≠ ['.'] ∧ part ≠ ['.', '.'] := by
  unfold component? at named
  split at named
  · cases named
  · split at named
    · split at named <;> cases named
    · split at named
      · cases named
      · cases named
        exact ⟨rfl, by assumption, by assumption, by assumption⟩

theorem component?_inner {part : List Char} {c : Component} (loud : component? false part = some c) :
    component? true part = some c := by
  unfold component? at loud ⊢
  by_cases dot : part = ['.']
  · simp [dot] at loud
  · simpa [dot] using loud

theorem proper_of_name_mem {p : Path} {text : String} (member : .name text ∈ p.components) : Proper text.toList := by
  cases split : p.parts with
  | nil => exact absurd split (parts_ne_nil p)
  | cons first rest =>
    have found : ∃ part ∈ p.parts, ∃ leading, component? leading part = some (.name text) := by
      rw [components_eq split, List.mem_append, List.mem_append] at member
      rcases member with atRoot | atFirst | later
      · split at atRoot <;> simp at atRoot
      · exact ⟨first, by rw [split]; simp, true, by simpa using atFirst⟩
      · obtain ⟨part, inside, named⟩ := List.mem_filterMap.mp later
        exact ⟨part, by rw [split]; simp [inside], false, named⟩
    obtain ⟨part, inside, leading, named⟩ := found
    obtain ⟨rfl, nonempty, notDot, notUp⟩ := component?_name named
    rw [String.toList_ofList]
    exact ⟨nonempty, notDot, notUp, parts_free inside⟩

theorem inner_of_proper {parts : List (List Char)} (proper : ∀ part ∈ parts, Proper part) :
    inner parts = parts.map fun part => .name (String.ofList part) := by
  induction parts with
  | nil => rfl
  | cons part rest ih =>
    rw [inner, List.filterMap_cons_some (component?_of_proper (proper part List.mem_cons_self) false), List.map_cons]
    exact congrArg _ (ih fun other member => proper other (List.mem_cons_of_mem _ member))

theorem toList_join (names : List String) :
    (Text.join "/" names).toList = ['/'].intercalate (names.map String.toList) :=
  Text.toList_join "/" names

theorem isAbsolute_of_first {p : Path} {first : List Char} {rest : List (List Char)} (split : p.parts = first :: rest)
    (nonempty : first ≠ []) : p.isAbsolute = false := by
  rw [← Bool.not_eq_true]
  intro absolute
  obtain ⟨below, text⟩ := isAbsolute_iff.mp absolute
  rw [parts_of_absolute text] at split
  exact nonempty (List.cons.inj split).1.symm

theorem components_ofNames {names : List String} (proper : ∀ name ∈ names, Proper name.toList) :
    (ofNames names).components = names.map .name := by
  cases names with
  | nil => rfl
  | cons name rest =>
    have split : (ofNames (name :: rest)).parts = name.toList :: rest.map String.toList := by
      rw [parts, ofNames, toList_join, Chars.splitAt_intercalate (by rfl) (by simp)]
      · rfl
      · intro part member
        obtain ⟨text, inside, rfl⟩ := List.mem_map.mp member
        exact (proper text inside).2.2.2
    have others : ∀ part ∈ rest.map String.toList, Proper part := by
      intro part member
      obtain ⟨text, inside, rfl⟩ := List.mem_map.mp member
      exact proper text (List.mem_cons_of_mem _ inside)
    have head := proper name List.mem_cons_self
    rw [components_eq split, isAbsolute_of_first split head.1, component?_of_proper head, inner_of_proper others]
    simp [String.ofList_toList]

/-- A piece that does not come first in a relative path. -/
def Inner (piece : Piece) : Prop := (∀ c ∈ piece.1, (c == '/') = false) ∧ piece.2 = component? false piece.1

/-- A relative path whose first piece is empty has no other. -/
inductive Pieces : Bool → List Piece → Prop
  | absolute (pieces : List Piece) (inner : ∀ piece ∈ pieces, Inner piece) : Pieces true pieces
  | relative (first : List Char) (rest : List Piece) (free : ∀ c ∈ first, (c == '/') = false)
      (nonempty : rest ≠ [] → first ≠ []) (inner : ∀ piece ∈ rest, Inner piece) :
      Pieces false ((first, component? true first) :: rest)

theorem inner_map {parts : List (List Char)} (free : ∀ part ∈ parts, ∀ c ∈ part, (c == '/') = false) :
    ∀ piece ∈ parts.map (fun part => (part, component? false part)), Inner piece := by
  intro piece member
  obtain ⟨part, inside, rfl⟩ := List.mem_map.mp member
  exact ⟨free part inside, rfl⟩

theorem pieces_spelled (p : Path) : Pieces p.isAbsolute p.pieces := by
  unfold pieces
  by_cases absolute : p.isAbsolute = true
  · obtain ⟨below, text⟩ := isAbsolute_iff.mp absolute
    rw [text, absolute]
    exact .absolute _ (inner_map fun part member => Chars.free_of_mem_splitAt member)
  · rw [Bool.not_eq_true] at absolute
    rw [absolute]
    split
    next below text => rw [isAbsolute_iff.mpr ⟨below, text⟩] at absolute; cases absolute
    next =>
      obtain ⟨first, rest, split⟩ := List.exists_cons_of_ne_nil (parts_ne_nil p)
      have texts : Chars.splitAt (· == '/') p.text.toList = first :: rest := split
      have free : ∀ part ∈ first :: rest, ∀ c ∈ part, (c == '/') = false := by
        rw [← split]
        exact fun part member => parts_free member
      rw [texts]
      refine .relative first _ (free first List.mem_cons_self) ?_
        (inner_map fun part member => free part (List.mem_cons_of_mem _ member))
      intro more empty
      subst empty
      obtain ⟨c, below, text, slash⟩ := Chars.sep_head_of_splitAt split (by simpa using more)
      rw [beq_iff_eq.mp slash] at text
      rw [isAbsolute_iff.mpr ⟨below, text⟩] at absolute
      cases absolute

theorem components_pieces (p : Path) :
    p.components = (if p.isAbsolute then [.root] else []) ++ p.pieces.filterMap (·.2) := rfl

theorem joinPieces_parts {pieces : List Piece} (nonempty : pieces ≠ [])
    (free : ∀ piece ∈ pieces, ∀ c ∈ piece.1, (c == '/') = false) :
    Chars.splitAt (· == '/') (joinPieces pieces) = pieces.map (·.1) := by
  apply Chars.splitAt_intercalate (by rfl) (by simpa using nonempty)
  intro part member
  obtain ⟨piece, inside, rfl⟩ := List.mem_map.mp member
  exact free piece inside

theorem inner_pieces {pieces : List Piece} (inner : ∀ piece ∈ pieces, Inner piece) :
    Path.inner (pieces.map (·.1)) = pieces.filterMap (·.2) := by
  rw [Path.inner, List.filterMap_map]
  apply List.filterMap_congr
  intro piece member
  exact (inner piece member).2.symm

/-- Pieces that stand at the start of a path spell a path with the components they stand for. -/
theorem components_ofPieces {absolute : Bool} {pieces : List Piece} (spelled : pieces = [] ∨ Pieces absolute pieces)
    (started : absolute = false → ∀ piece ∈ pieces.head?, piece.1 ≠ []) :
    (ofPieces absolute pieces).components = (if absolute then [.root] else []) ++ pieces.filterMap (·.2) := by
  have nothing : pieces = [] → (ofPieces absolute pieces).components = if absolute then [.root] else [] := by
    rintro rfl
    cases absolute <;> rfl
  rcases spelled with empty | spelled
  · rw [nothing empty, empty]
    simp
  · cases spelled with
    | absolute _ inner =>
      by_cases empty : pieces = []
      · rw [nothing empty, empty]
        rfl
      · have text : (ofPieces true pieces).text.toList = '/' :: joinPieces pieces := by
          rw [ofPieces, String.toList_ofList]
          rfl
        have split := parts_of_absolute text
        rw [joinPieces_parts empty fun piece member => (inner piece member).1] at split
        rw [components_eq split, isAbsolute_iff.mpr ⟨_, text⟩, inner_pieces inner]
        rfl
    | relative first rest free _ inner =>
      have split : (ofPieces false ((first, component? true first) :: rest)).parts = first :: rest.map (·.1) := by
        rw [parts, ofPieces, String.toList_ofList]
        apply joinPieces_parts (by simp)
        intro piece member
        rcases List.mem_cons.mp member with rfl | later
        · exact free
        · exact (inner piece later).1
      have nonempty : first ≠ [] := started rfl (first, component? true first) rfl
      rw [components_eq split, isAbsolute_of_first split nonempty, inner_pieces inner]
      cases component? true first <;> rfl

theorem filterMap_silent {pieces : List Piece} (quiet : ∀ piece ∈ pieces, silent piece = true) :
    pieces.filterMap (·.2) = [] := by
  rw [List.filterMap_eq_nil_iff]
  intro piece member
  simpa [silent] using quiet piece member

theorem filterMap_dropWhile_silent (pieces : List Piece) :
    (pieces.dropWhile silent).filterMap (·.2) = pieces.filterMap (·.2) := by
  conv_rhs => rw [← List.takeWhile_append_dropWhile (p := silent) (l := pieces)]
  rw [List.filterMap_append, filterMap_silent fun piece member => List.mem_takeWhile_imp member, List.nil_append]

theorem filterMap_dropSilentEnd (pieces : List Piece) :
    (dropSilentEnd pieces).filterMap (·.2) = pieces.filterMap (·.2) := by
  rw [dropSilentEnd, List.filterMap_reverse, filterMap_dropWhile_silent, ← List.filterMap_reverse,
    List.reverse_reverse]

theorem dropSilentEnd_front (pieces : List Piece) : dropSilentEnd pieces <+: pieces := by
  rw [dropSilentEnd, ← List.reverse_suffix, List.reverse_reverse]
  exact List.dropWhile_suffix _

theorem Pieces.of_front {absolute : Bool} {pieces front : List Piece} (spelled : Pieces absolute pieces)
    (start : front <+: pieces) (shorter : absolute = false → front ≠ pieces ∨ ∀ piece ∈ pieces.head?, piece.1 ≠ []) :
    (front = [] ∨ Pieces absolute front) ∧ (absolute = false → ∀ piece ∈ front.head?, piece.1 ≠ []) := by
  obtain ⟨back, whole⟩ := start
  cases spelled with
  | absolute _ inner =>
    exact ⟨.inr (.absolute _ fun piece member => inner piece (whole ▸ List.mem_append_left _ member)), by simp⟩
  | relative first rest free nonempty inner =>
    cases front with
    | nil => exact ⟨.inl rfl, by simp⟩
    | cons piece front =>
      obtain ⟨rfl, rfl⟩ := List.cons.inj whole
      have started : first ≠ [] := by
        rcases shorter rfl with less | given
        · exact nonempty fun empty => less (by
            change front ++ back = [] at empty
            obtain ⟨rfl, rfl⟩ := List.append_eq_nil_iff.mp empty
            rfl)
        · exact given _ rfl
      refine ⟨.inr (.relative first front free (fun _ => started) ?_), ?_⟩
      · exact fun piece member => inner piece (List.mem_append_left _ member)
      · intro _ piece member
        cases Option.some.inj member
        exact started

/-- The parent of a path is the path without its last component. -/
theorem components_parent (p : Path) : (p.parent?.getD ⟨""⟩).components = p.components.dropLast := by
  rw [components_pieces p]
  cases reversed : p.pieces.reverse.dropWhile silent with
  | nil =>
    have quiet : p.pieces.filterMap (·.2) = [] := by
      rw [← filterMap_dropSilentEnd, dropSilentEnd, reversed]
      rfl
    rw [parent?, reversed, quiet]
    cases p.isAbsolute <;> rfl
  | cons last before =>
    have loud : silent last = false := by
      have := List.head?_dropWhile_not silent p.pieces.reverse
      rw [reversed] at this
      simpa using this
    have shown : dropSilentEnd p.pieces = before.reverse ++ [last] := by
      rw [dropSilentEnd, reversed, List.reverse_cons]
    have start : (before.dropWhile silent).reverse <+: p.pieces := by
      have first : (before.dropWhile silent).reverse <+: before.reverse := by
        rw [← List.reverse_suffix, List.reverse_reverse, List.reverse_reverse]
        exact List.dropWhile_suffix _
      have second : before.reverse <+: dropSilentEnd p.pieces := by
        rw [shown]
        exact List.prefix_append _ _
      exact first.trans (second.trans (dropSilentEnd_front _))
    have shorter : (before.dropWhile silent).reverse ≠ p.pieces := by
      intro same
      have bound : (before.dropWhile silent).length ≤ before.length := (List.dropWhile_suffix _).length_le
      have length := (dropSilentEnd_front p.pieces).length_le
      rw [shown, ← same] at length
      simp at length
      omega
    obtain ⟨spelled, started⟩ := (pieces_spelled p).of_front start fun _ => .inl shorter
    have parent : p.parent? = some (ofPieces p.isAbsolute (before.dropWhile silent).reverse) := by
      rw [parent?, reversed]
    have above : ((before.dropWhile silent).reverse).filterMap (·.2) = before.reverse.filterMap (·.2) := by
      rw [List.filterMap_reverse, filterMap_dropWhile_silent, List.filterMap_reverse]
    have below : p.pieces.filterMap (·.2) = before.reverse.filterMap (·.2) ++ last.2.toList := by
      rw [← filterMap_dropSilentEnd, shown, List.filterMap_append, List.filterMap_cons]
      cases last.2 <;> rfl
    rw [parent, Option.getD_some, components_ofPieces spelled started, above, below]
    cases component : last.2 with
    | none => simp [silent, component] at loud
    | some c => rw [Option.toList_some, ← List.append_assoc, List.dropLast_concat]

theorem filterMap_dropComponents (count : Nat) (pieces : List Piece) :
    (dropComponents count pieces).filterMap (·.2) = (pieces.filterMap (·.2)).drop count := by
  induction pieces generalizing count with
  | nil => cases count <;> simp [dropComponents]
  | cons piece rest ih =>
    obtain ⟨text, component⟩ := piece
    cases count with
    | zero => rfl
    | succ count =>
      cases component with
      | none => exact ih (count + 1)
      | some c => exact ih count

theorem dropComponents_suffix (count : Nat) (pieces : List Piece) : dropComponents count pieces <:+ pieces := by
  induction pieces generalizing count with
  | nil => cases count <;> exact List.suffix_refl _
  | cons piece rest ih =>
    obtain ⟨text, component⟩ := piece
    cases count with
    | zero => exact List.suffix_refl _
    | succ count =>
      cases component with
      | none => exact (ih (count + 1)).trans (List.suffix_cons _ _)
      | some c => exact (ih count).trans (List.suffix_cons _ _)

theorem dropComponents_succ_suffix (count : Nat) (piece : Piece) (rest : List Piece) :
    dropComponents (count + 1) (piece :: rest) <:+ rest := by
  obtain ⟨text, component⟩ := piece
  cases component with
  | none => exact dropComponents_suffix (count + 1) rest
  | some c => exact dropComponents_suffix count rest

theorem components_ofPieces_inner {pieces : List Piece} (inner : ∀ piece ∈ pieces, Inner piece)
    (loud : ∀ piece ∈ pieces.head?, silent piece = false) :
    (ofPieces false pieces).components = pieces.filterMap (·.2) := by
  cases pieces with
  | nil => rfl
  | cons piece rest =>
    obtain ⟨text, component⟩ := piece
    have sound := loud (text, component) rfl
    obtain ⟨free, spelled⟩ := inner (text, component) List.mem_cons_self
    cases component with
    | none => simp [silent] at sound
    | some c =>
      have asFirst : component? true text = some c := component?_inner spelled.symm
      have nonempty : text ≠ [] := by
        rintro rfl
        simp [component?] at spelled
      have whole : Pieces false ((text, some c) :: rest) := by
        rw [← asFirst]
        exact .relative text rest free (fun _ => nonempty) fun piece member => inner piece (List.mem_cons_of_mem _ member)
      rw [components_ofPieces (.inr whole) fun _ piece member => by cases Option.some.inj member; exact nonempty]
      rfl

theorem dropWhile_head {pieces : List Piece} : ∀ piece ∈ (pieces.dropWhile silent).head?, silent piece = false := by
  intro piece member
  have first := List.head?_dropWhile_not silent pieces
  rw [Option.mem_def.mp member] at first
  simpa using first

theorem dropSilentEnd_head {pieces : List Piece} {piece : Piece} (member : piece ∈ (dropSilentEnd pieces).head?) :
    piece ∈ pieces.head? := by
  obtain ⟨back, whole⟩ := dropSilentEnd_front pieces
  cases shown : dropSilentEnd pieces with
  | nil => simp [shown] at member
  | cons first rest =>
    rw [shown] at member whole
    rw [← whole]
    exact member

theorem inner_dropComponents {p : Path} {count : Nat} (below : p.isAbsolute = true ∨ 0 < count) :
    ∀ piece ∈ dropComponents count p.pieces, Inner piece := by
  intro piece member
  have spelled := pieces_spelled p
  generalize p.pieces = pieces at spelled member
  cases absolute : p.isAbsolute with
  | true =>
    rw [absolute] at spelled
    cases spelled with
    | absolute _ inner => exact inner piece ((dropComponents_suffix count pieces).subset member)
  | false =>
    rw [absolute] at spelled
    cases spelled with
    | relative first rest free nonempty inner =>
      obtain ⟨less, rfl⟩ : ∃ less, count = less + 1 := by
        rcases below with rooted | positive
        · rw [rooted] at absolute
          cases absolute
        · exact ⟨count - 1, by omega⟩
      exact inner piece ((dropComponents_succ_suffix less _ rest).subset member)

theorem components_dropSilentEnd (p : Path) :
    (ofPieces p.isAbsolute (dropSilentEnd p.pieces)).components = p.components := by
  have shorter : p.isAbsolute = false → dropSilentEnd p.pieces ≠ p.pieces ∨ ∀ piece ∈ p.pieces.head?, piece.1 ≠ [] := by
    intro relative
    have spelled := pieces_spelled p
    rw [relative] at spelled
    generalize p.pieces = pieces at spelled
    cases spelled with
    | relative first rest free nonempty inner =>
      by_cases empty : first = []
      · left
        have alone : rest = [] := not_not.mp fun more => nonempty more empty
        subst empty alone
        simp [dropSilentEnd, silent, component?]
      · right
        intro piece member
        cases Option.some.inj member
        exact empty
  obtain ⟨spelled, started⟩ := (pieces_spelled p).of_front (dropSilentEnd_front _) shorter
  rw [components_ofPieces spelled started, filterMap_dropSilentEnd]
  rfl

theorem components_below {p : Path} {count : Nat} (below : p.isAbsolute = true ∨ 0 < count) :
    (ofPieces false (dropSilentEnd ((dropComponents count p.pieces).dropWhile silent))).components =
      (p.pieces.filterMap (·.2)).drop count := by
  rw [components_ofPieces_inner, filterMap_dropSilentEnd, filterMap_dropWhile_silent, filterMap_dropComponents]
  · intro piece member
    have inside := (dropSilentEnd_front _).subset member
    exact inner_dropComponents below piece ((List.dropWhile_suffix _).subset inside)
  · intro piece member
    exact dropWhile_head piece (dropSilentEnd_head member)

/-- The rest of a path below a base has the components after those of the base. -/
theorem components_relativeTo {base p below : Path} (found : base.relativeTo? p = some below) :
    p.components = base.components ++ below.components := by
  unfold relativeTo? at found
  split at found
  next started =>
    obtain ⟨tail, whole⟩ := List.isPrefixOf_iff_prefix.mp started
    have rest : p.components.drop base.components.length = tail := by
      rw [← whole, List.drop_left]
    rw [← whole]
    congr 1
    rw [← rest]
    dsimp only at found
    split at found
    next none =>
      obtain rfl := Option.some.inj found
      rw [components_dropSilentEnd, none, List.drop_zero]
    next some =>
      obtain rfl := Option.some.inj found
      by_cases absolute : p.isAbsolute = true
      · rw [if_pos absolute, components_below (.inl absolute), components_pieces p, if_pos absolute]
        obtain ⟨less, length⟩ := Nat.exists_eq_succ_of_ne_zero some
        rw [length]
        rfl
      · rw [if_neg absolute, components_below (.inr (by omega)), components_pieces p, if_neg absolute]
        rfl
  next => cases found

/-- A relative path of names only. -/
def isPlain (p : Path) : Bool := p.components.all fun
  | .name _ => true
  | _ => false

theorem isPlain_iff {p : Path} : p.isPlain = true ↔ ∃ names : List String, p.components = names.map .name := by
  unfold isPlain
  generalize p.components = components
  induction components with
  | nil => exact ⟨fun _ => ⟨[], rfl⟩, fun _ => rfl⟩
  | cons c rest ih =>
    cases c with
    | name text =>
      rw [List.all_cons, Bool.true_and, ih]
      constructor
      · rintro ⟨names, rfl⟩
        exact ⟨text :: names, rfl⟩
      · rintro ⟨names, whole⟩
        obtain ⟨_, tail, _, _, others⟩ := List.map_eq_cons_iff.mp whole.symm
        exact ⟨tail, others.symm⟩
    | root | here | up =>
      constructor
      · intro impossible
        cases impossible
      · rintro ⟨names, whole⟩
        obtain ⟨_, _, _, odd, _⟩ := List.map_eq_cons_iff.mp whole.symm
        cases odd

theorem relative_of_plain {p : Path} {names : List String} (plain : p.components = names.map .name) :
    p.isAbsolute = false := by
  rw [← Bool.not_eq_true]
  intro absolute
  rw [components, if_pos absolute] at plain
  obtain ⟨_, _, _, odd, _⟩ := List.map_eq_cons_iff.mp plain.symm
  cases odd

theorem text_of_bare {p : Path} (bare : p.components = []) : p.text = "" := by
  have relative : p.isAbsolute = false := @relative_of_plain p [] bare
  cases text : p.text.toList with
  | nil => simpa using text
  | cons c below =>
    have proper : ¬ (c == '/') = true := by
      intro slash
      rw [isAbsolute_iff.mpr ⟨below, beq_iff_eq.mp slash ▸ text⟩] at relative
      cases relative
    obtain ⟨first, rest, split⟩ := List.exists_cons_of_ne_nil (@Chars.splitAt_ne_nil (· == '/') below)
    have parts : p.parts = (c :: first) :: rest := by
      rw [parts, text, Chars.splitAt, if_neg proper, split]
    have silent : component? true (c :: first) = none := by
      have whole := components_eq parts
      rw [bare] at whole
      simpa using (List.append_eq_nil_iff.mp (List.append_eq_nil_iff.mp whole.symm).2).1
    unfold component? at silent
    rw [if_neg (by simp)] at silent
    split at silent
    · cases silent
    · split at silent <;> cases silent

theorem components_join_plain {base p : Path} {names : List String} (plain : p.components = names.map .name) :
    (base.join p).components = base.components ++ names.map .name := by
  have relative := relative_of_plain plain
  by_cases empty : base.text.toList = []
  · have bare : base.components = [] := by
      simp [components, isAbsolute, pieces, empty, Chars.splitAt, component?]
    rw [join_of_empty empty, plain, bare, List.nil_append]
  · rw [components_join relative empty]
    congr 1
    cases split : p.parts with
    | nil => exact absurd split (parts_ne_nil p)
    | cons first rest =>
      have whole := components_eq split
      rw [relative, plain] at whole
      rw [whole, inner, List.filterMap_cons]
      -- A leading dot would be a component that is no name.
      have noDot : component? true first = component? false first := by
        unfold component?
        by_cases dot : first = ['.']
        · have here : Component.here ∈ names.map Component.name := by
            rw [whole, dot]
            simp [component?]
          simp at here
        · simp [dot]
      rw [noDot]
      cases component? false first <;> rfl

end MarkerGen.Path
