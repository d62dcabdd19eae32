import MarkerGen.Output.Writer
import MarkerGen.Proofs.FileStore.Spots

/-! What each operation on a store can change. No operation takes a directory away, so ways that
are open stay open; making directories fills only empty spots, writing changes the content of
one more spot, and removing empties one. -/
namespace MarkerGen.FileStore

/-- A later store in which every directory is still one. -/
structure Keeps (before after : FileStore) : Prop where
  home : after.home = before.home
  directories : ∀ spot, before.lookup spot = some .directory → after.lookup spot = some .directory

theorem Keeps.refl (fs : FileStore) : Keeps fs fs := ⟨rfl, fun _ found => found⟩

theorem Keeps.trans {a b c : FileStore} (first : Keeps a b) (second : Keeps b c) : Keeps a c :=
  ⟨second.home.trans first.home, fun spot found => second.directories spot (first.directories spot found)⟩

theorem Keeps.way {before after : FileStore} (kept : Keeps before after) {way : List Spot} (free : before.Open way) :
    after.Open way := fun spot member => kept.directories spot (free spot member)

theorem keeps_put {fs : FileStore} {spot : Spot} (free : fs.lookup spot ≠ some .directory) (stored : Stored) :
    Keeps fs (fs.put spot stored) := by
  refine ⟨rfl, fun other found => ?_⟩
  rw [lookup_put free, if_neg]
  · exact found
  · rintro rfl
    exact free found

theorem Keeps.read {before after : FileStore} (kept : Keeps before after) {p : Path} {content : ByteArray}
    (read : before.read p = .ok content)
    (there : after.lookup (before.spotOf p) = before.lookup (before.spotOf p)) : after.read p = .ok content := by
  obtain ⟨nonempty, way, found⟩ := read_ok_iff.mp read
  rw [read_ok_iff, spotOf_congr kept.home, wayTo_congr kept.home]
  exact ⟨nonempty, kept.way way, there.trans found⟩

/-- Directories were made where there was nothing, and nothing else changed. -/
structure Grows (before after : FileStore) : Prop where
  home : after.home = before.home
  lookup : ∀ spot, after.lookup spot = before.lookup spot ∨
    before.lookup spot = none ∧ after.lookup spot = some .directory

theorem Grows.refl (fs : FileStore) : Grows fs fs := ⟨rfl, fun _ => .inl rfl⟩

theorem Grows.trans {a b c : FileStore} (first : Grows a b) (second : Grows b c) : Grows a c := by
  refine ⟨second.home.trans first.home, fun spot => ?_⟩
  rcases second.lookup spot with same | ⟨empty, made⟩
  · rw [same]
    exact first.lookup spot
  · rcases first.lookup spot with same | ⟨_, directory⟩
    · exact .inr ⟨same ▸ empty, made⟩
    · rw [directory] at empty
      cases empty

theorem Grows.keeps {before after : FileStore} (grown : Grows before after) : Keeps before after := by
  refine ⟨grown.home, fun spot found => ?_⟩
  rcases grown.lookup spot with same | ⟨empty, _⟩
  · exact same.trans found
  · rw [found] at empty
    cases empty

theorem grows_put {fs : FileStore} {spot : Spot} (empty : fs.lookup spot = none) :
    Grows fs (fs.put spot .directory) := by
  refine ⟨rfl, fun other => ?_⟩
  rw [lookup_put (by simp [empty])]
  split
  next same => exact .inr ⟨same ▸ empty, rfl⟩
  next => exact .inl rfl

theorem makeAlong_cons (fs : FileStore) (spot : Spot) (piece : List Char) (rest : List (List Char)) :
    fs.makeAlong spot (piece :: rest) =
      if piece = [] ∨ piece = ['.'] ∨ piece = ['.', '.'] then fs.makeAlong (advance spot piece) rest
      else match fs.lookup (advance spot piece) with
        | some .directory => fs.makeAlong (advance spot piece) rest
        | some (.file _) => .error (if rest.all fun piece => piece = [] then .exists else .notDirectory)
        | none => (fs.put (advance spot piece) .directory).makeAlong (advance spot piece) rest := by
  rw [makeAlong]
  by_cases still : piece = [] ∨ piece = ['.']
  · have covered : piece = [] ∨ piece = ['.'] ∨ piece = ['.', '.'] := or_assoc.mp (.inl still)
    rw [if_pos still, if_pos covered, advance, if_pos still]
  · rw [if_neg still]
    by_cases up : piece = ['.', '.']
    · rw [if_pos up, if_pos (.inr (.inr up)), advance, if_neg still, if_pos up]
    · have named : ¬ (piece = [] ∨ piece = ['.'] ∨ piece = ['.', '.']) :=
        fun covered => up ((or_assoc.mpr covered).resolve_left still)
      have next : advance spot piece = spot ++ [String.ofList piece] := by rw [advance, if_neg still, if_neg up]
      rw [if_neg named, next]
      exact if_neg up

theorem makeAlong_grows {fs made : FileStore} {spot : Spot} {pieces : List (List Char)}
    (ok : fs.makeAlong spot pieces = .ok made) : Grows fs made := by
  induction pieces generalizing fs spot with
  | nil =>
    cases ok
    exact .refl _
  | cons piece rest ih =>
    rw [makeAlong_cons] at ok
    split at ok
    · exact ih ok
    · split at ok
      · exact ih ok
      · cases ok
      next empty => exact (grows_put empty).trans (ih ok)

theorem makeAlong_again {fs made later : FileStore} {spot : Spot} {pieces : List (List Char)}
    (ok : fs.makeAlong spot pieces = .ok made) (kept : Keeps made later) :
    later.makeAlong spot pieces = .ok later := by
  induction pieces generalizing fs spot with
  | nil => rfl
  | cons piece rest ih =>
    rw [makeAlong_cons] at ok ⊢
    split at ok
    next still => rw [if_pos still, ih ok]
    next named =>
      rw [if_neg named]
      have there : later.lookup (advance spot piece) = some .directory := by
        apply kept.directories
        split at ok
        next found => exact (makeAlong_grows ok).keeps.directories _ found
        next => cases ok
        next empty =>
          apply (makeAlong_grows ok).keeps.directories
          rw [lookup_put (by simp [empty]), if_pos rfl]
      rw [there]
      dsimp only
      split at ok
      · exact ih ok
      · cases ok
      · exact ih ok

theorem makeDirectory_grows {fs made : FileStore} {p : Path} (ok : fs.makeDirectory p = .ok made) : Grows fs made :=
  makeAlong_grows ok

theorem makeDirectory_again {fs made later : FileStore} {p : Path} (ok : fs.makeDirectory p = .ok made)
    (kept : Keeps made later) : later.makeDirectory p = .ok later := by
  unfold makeDirectory at ok ⊢
  rw [route_congr (kept.home.trans (makeAlong_grows ok).home)]
  exact makeAlong_again ok kept

theorem route_getLast {fs : FileStore} {p : Path} (nonempty : p.text.toList ≠ [])
    (plain : p.text.toList.getLast? ≠ some '/') : ∃ front piece, (fs.route p).2 = front ++ [piece] ∧ piece ≠ [] := by
  have ending (text : List Char) (full : text ≠ []) (plain : text.getLast? ≠ some '/') :
      ∃ front piece, Chars.splitAt (· == '/') text = front ++ [piece] ∧ piece ≠ [] := by
    obtain ⟨front, c, rfl⟩ : ∃ front c, text = front ++ [c] := ⟨_, _, (List.dropLast_concat_getLast full).symm⟩
    have apart : (c == '/') = false := by simpa using plain
    obtain ⟨pieces, last, split⟩ := @Chars.splitAt_concat (· == '/') front c apart
    exact ⟨pieces, last ++ [c], split, by simp⟩
  unfold route
  split
  next rest text =>
    rw [text] at plain
    cases rest with
    | nil => exact absurd rfl plain
    | cons c rest => exact ending (c :: rest) (by simp) (by simpa using plain)
  next => exact ending _ nonempty plain

theorem replace_pieces {fs : FileStore} {p : Path} (nonempty : p.text.toList ≠ [])
    (plain : p.text.toList.getLast? ≠ some '/') :
    ((fs.route p).2.reverse.dropWhile (·.isEmpty)).reverse = (fs.route p).2 := by
  obtain ⟨front, piece, pieces, full⟩ := @route_getLast fs p nonempty plain
  rw [pieces, List.reverse_append, List.reverse_singleton, List.singleton_append, List.dropWhile_cons_of_neg]
  · simp
  · simpa using full

theorem replace_eq (fs : FileStore) (p : Path) (content : ByteArray) :
    fs.replace p content =
      (fs.follow (fs.route p).1 ((fs.route p).2.reverse.dropWhile (·.isEmpty)).reverse).bind fun spot =>
        if p.text.toList.getLast? = some '/' then .error .notDirectory
        else if (fs.lookup spot).any Stored.isDirectory then .error .isDirectory
        else .ok (fs.put spot (.file content)) := rfl

theorem isDirectory_any (found : Option Stored) : found.any Stored.isDirectory = true ↔ found = some .directory := by
  cases found with
  | none => simp
  | some stored => cases stored <;> simp [Stored.isDirectory]

/-- Putting a file in place needs an open way to a spot that is no directory. -/
theorem replace_ok_iff {fs next : FileStore} {p : Path} {content : ByteArray} :
    fs.replace p content = .ok next ↔ p.text ≠ "" ∧ p.text.toList.getLast? ≠ some '/' ∧ fs.Open (fs.wayTo p) ∧
      fs.lookup (fs.spotOf p) ≠ some .directory ∧ next = fs.put (fs.spotOf p) (.file content) := by
  rw [replace_eq]
  by_cases empty : p.text = ""
  · have here : fs.lookup fs.home = some .directory := home_directory (by simp)
    simp [route, empty, Chars.splitAt, follow, here, Except.bind, Stored.isDirectory]
  · by_cases slash : p.text.toList.getLast? = some '/'
    · cases fs.follow (fs.route p).1 ((fs.route p).2.reverse.dropWhile (·.isEmpty)).reverse <;>
        simp [Except.bind, slash]
    · rw [replace_pieces (by simpa using empty) slash]
      cases followed : fs.follow (fs.route p).1 (fs.route p).2 with
      | error error =>
        have closed : ¬ fs.Open (fs.wayTo p) := by
          intro way
          rw [follow_ok_iff.mpr ⟨way, rfl⟩] at followed
          cases followed
        simp [Except.bind, closed]
      | ok spot =>
        obtain ⟨way, rfl⟩ := follow_ok_iff.mp followed
        have free : fs.Open (fs.wayTo p) := way
        rw [Except.bind, if_neg slash, ← spotOf]
        by_cases directory : fs.lookup (fs.spotOf p) = some .directory
        · rw [if_pos ((isDirectory_any _).mpr directory)]
          simp [directory]
        · rw [if_neg (mt (isDirectory_any _).mp directory)]
          simp only [Except.ok.injEq, ne_eq, empty, slash, free, directory, not_false_eq_true, true_and]
          exact eq_comm

/-- The directory that is made before a file is put at a path. -/
def parentOf (p : Path) : Path :=
  match p.parent? with
  | some parent => if parent.text.isEmpty then ⟨"."⟩ else parent
  | none => ⟨"."⟩

theorem writeFile_eq (fs : FileStore) (p : Path) (content : ByteArray) :
    fs.writeFile p content = match fs.makeDirectory (parentOf p) with
      | .error error => (fs, .error (.io (parentOf p) error))
      | .ok made => match made.replace p content with
        | .error error => (made, .error (.io p error))
        | .ok written => (written, .ok ()) := rfl

theorem writeFile_ok_iff {fs next : FileStore} {p : Path} {content : ByteArray} :
    fs.writeFile p content = (next, .ok ()) ↔
      ∃ made, fs.makeDirectory (parentOf p) = .ok made ∧ made.replace p content = .ok next := by
  rw [writeFile_eq]
  cases fs.makeDirectory (parentOf p) with
  | error error => simp
  | ok made => cases replaced : made.replace p content <;> simp [replaced]

/-- What writing a file does to a store. -/
structure Wrote (fs : FileStore) (p : Path) (content : ByteArray) (next : FileStore) : Prop where
  keeps : Keeps fs next
  read : next.read p = .ok content
  elsewhere : ∀ spot, spot ≠ fs.spotOf p → next.lookup spot = fs.lookup spot ∨
    fs.lookup spot = none ∧ next.lookup spot = some .directory
  again : ∀ later other, Keeps next later → later.lookup (fs.spotOf p) ≠ some .directory →
    ∃ after, later.writeFile p other = (after, .ok ()) ∧ after.home = later.home ∧
      ∀ spot, after.lookup spot = if spot = fs.spotOf p then some (.file other) else later.lookup spot

theorem writeFile_wrote {fs next : FileStore} {p : Path} {content : ByteArray}
    (ok : fs.writeFile p content = (next, .ok ())) : Wrote fs p content next := by
  obtain ⟨made, parentMade, replaced⟩ := writeFile_ok_iff.mp ok
  obtain ⟨nonempty, plain, way, free, rfl⟩ := replace_ok_iff.mp replaced
  have grown := makeDirectory_grows parentMade
  have kept := keeps_put free (.file content)
  have spot := spotOf_congr grown.home p
  constructor
  · exact grown.keeps.trans kept
  · rw [read_ok_iff, spotOf_congr kept.home, wayTo_congr kept.home]
    exact ⟨nonempty, kept.way way, by rw [lookup_put free, if_pos rfl]⟩
  · intro other apart
    rw [lookup_put free, if_neg (spot ▸ apart)]
    exact grown.lookup other
  · intro later other keeps notDirectory
    have sinceMade := kept.trans keeps
    have again := makeDirectory_again parentMade sinceMade
    have laterSpot : later.spotOf p = fs.spotOf p := (spotOf_congr sinceMade.home p).trans spot
    have laterFree : later.lookup (later.spotOf p) ≠ some .directory := laterSpot.symm ▸ notDirectory
    have laterWay : later.Open (later.wayTo p) := (wayTo_congr sinceMade.home p).symm ▸ sinceMade.way way
    have put : later.replace p other = .ok (later.put (later.spotOf p) (.file other)) :=
      replace_ok_iff.mpr ⟨nonempty, plain, laterWay, laterFree, rfl⟩
    refine ⟨_, writeFile_ok_iff.mpr ⟨later, again, put⟩, rfl, fun target => ?_⟩
    rw [lookup_put laterFree, laterSpot]

end MarkerGen.FileStore
