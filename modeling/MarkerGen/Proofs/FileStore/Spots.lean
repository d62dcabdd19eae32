import MarkerGen.FileStore
import MarkerGen.Proofs.Path.Components

/-! Where paths lead. Without links the text of a path alone decides on the spot, and the store
only decides whether the way there is open: every spot on it must be a directory. -/
namespace MarkerGen.FileStore

def advance (spot : Spot) (piece : List Char) : Spot :=
  if piece = [] ∨ piece = ['.'] then spot
  else if piece = ['.', '.'] then spot.dropLast
  else spot ++ [String.ofList piece]

def walk (spot : Spot) (pieces : List (List Char)) : Spot := pieces.foldl advance spot

def passed (spot : Spot) : List (List Char) → List Spot
  | [] => []
  | piece :: rest => spot :: passed (advance spot piece) rest

/-- The spot that a path stands for, whether or not there is something. -/
def spotOf (fs : FileStore) (p : Path) : Spot := walk (fs.route p).1 (fs.route p).2

def wayTo (fs : FileStore) (p : Path) : List Spot := passed (fs.route p).1 (fs.route p).2

/-- Every spot on the way is a directory. -/
def Open (fs : FileStore) (way : List Spot) : Prop := ∀ spot ∈ way, fs.lookup spot = some .directory

def HasFile (fs : FileStore) (spot : Spot) : Prop := ∃ content, fs.lookup spot = some (.file content)

theorem route_congr {fs other : FileStore} (home : other.home = fs.home) (p : Path) : other.route p = fs.route p := by
  unfold route
  rw [home]

theorem spotOf_congr {fs other : FileStore} (home : other.home = fs.home) (p : Path) : other.spotOf p = fs.spotOf p := by
  rw [spotOf, route_congr home, spotOf]

theorem wayTo_congr {fs other : FileStore} (home : other.home = fs.home) (p : Path) : other.wayTo p = fs.wayTo p := by
  rw [wayTo, route_congr home, wayTo]

theorem follow_directory {fs : FileStore} {spot : Spot} (here : fs.lookup spot = some .directory)
    (piece : List Char) (rest : List (List Char)) :
    fs.follow spot (piece :: rest) = fs.follow (advance spot piece) rest := by
  rw [follow, here]
  dsimp only [advance]
  split
  · rfl
  · split <;> rfl

theorem follow_ok_iff {fs : FileStore} {spot target : Spot} {pieces : List (List Char)} :
    fs.follow spot pieces = .ok target ↔ fs.Open (passed spot pieces) ∧ target = walk spot pieces := by
  induction pieces generalizing spot with
  | nil => simp [follow, passed, Open, walk, eq_comm]
  | cons piece rest ih =>
    by_cases here : fs.lookup spot = some .directory
    · rw [follow_directory here, ih]
      simp [Open, passed, walk, here]
    · have blocked : ∀ target, fs.follow spot (piece :: rest) ≠ .ok target := by
        intro target
        rw [follow]
        split
        · simp
        · simp
        next found => exact absurd found here
      simp [blocked, Open, passed, here]

theorem locate_ok_iff {fs : FileStore} {p : Path} {spot : Spot} :
    fs.locate p = .ok spot ↔ p.text ≠ "" ∧ fs.Open (fs.wayTo p) ∧ spot = fs.spotOf p := by
  unfold locate
  by_cases empty : p.text = ""
  · simp [empty]
  · rw [if_neg empty, follow_ok_iff]
    simp [empty, wayTo, spotOf]

theorem stat_ok_iff {fs : FileStore} {p : Path} {stored : Stored} :
    fs.stat p = .ok stored ↔ p.text ≠ "" ∧ fs.Open (fs.wayTo p) ∧ fs.lookup (fs.spotOf p) = some stored := by
  unfold stat
  cases located : fs.locate p with
  | error error =>
    constructor
    · intro found
      cases found
    · rintro ⟨nonempty, way, _⟩
      rw [locate_ok_iff.mpr ⟨nonempty, way, rfl⟩] at located
      cases located
  | ok spot =>
    obtain ⟨nonempty, way, rfl⟩ := locate_ok_iff.mp located
    simp only [bind, Except.bind]
    cases found : fs.lookup (fs.spotOf p) with
    | none => simp [throw, throwThe, MonadExceptOf.throw]
    | some other => simp [pure, Except.pure, nonempty, way]

theorem read_ok_iff {fs : FileStore} {p : Path} {content : ByteArray} :
    fs.read p = .ok content ↔
      p.text ≠ "" ∧ fs.Open (fs.wayTo p) ∧ fs.lookup (fs.spotOf p) = some (.file content) := by
  rw [← stat_ok_iff]
  unfold read
  cases found : fs.stat p with
  | error error => simp [bind, Except.bind]
  | ok stored => cases stored <;> simp [bind, Except.bind, throw, throwThe, MonadExceptOf.throw, pure, Except.pure]

theorem home_directory {fs : FileStore} {spot : Spot} (above : spot.isPrefixOf fs.home = true) :
    fs.lookup spot = some .directory := by
  rw [lookup, if_pos above]

theorem find_filter_ne {entries : List (Spot × Stored)} {spot other : Spot} (apart : other ≠ spot) :
    (entries.filter (·.1 != spot)).find? (·.1 == other) = entries.find? (·.1 == other) := by
  rw [List.find?_filter]
  congr 1
  funext entry
  by_cases same : entry.1 = other
  · simp [same, apart]
  · simp [same]

theorem find_filter_self (entries : List (Spot × Stored)) (spot : Spot) :
    (entries.filter (·.1 != spot)).find? (·.1 == spot) = none := by
  rw [List.find?_filter, List.find?_eq_none]
  simp

theorem lookup_put {fs : FileStore} {spot : Spot} (free : fs.lookup spot ≠ some .directory) (stored : Stored)
    (other : Spot) : (fs.put spot stored).lookup other = if other = spot then some stored else fs.lookup other := by
  have notAbove : ¬ spot.isPrefixOf fs.home = true := fun above => free (home_directory above)
  unfold lookup put
  by_cases same : other = spot
  · subst same
    dsimp only
    rw [if_neg notAbove, if_pos rfl, List.find?_append, find_filter_self]
    simp
  · dsimp only
    rw [List.find?_append, find_filter_ne same]
    simp [same, Ne.symm same]

theorem lookup_erase {fs : FileStore} {spot : Spot} (free : fs.lookup spot ≠ some .directory) (other : Spot) :
    (fs.erase spot).lookup other = if other = spot then none else fs.lookup other := by
  have notAbove : ¬ spot.isPrefixOf fs.home = true := fun above => free (home_directory above)
  unfold lookup erase
  by_cases same : other = spot
  · subst same
    dsimp only
    rw [if_neg notAbove, if_pos rfl, find_filter_self]
    rfl
  · dsimp only
    rw [find_filter_ne same, if_neg same]

def stride (spot : Spot) : Component → Spot
  | .root => []
  | .here => spot
  | .up => spot.dropLast
  | .name text => spot ++ [text]

theorem advance_eq (spot : Spot) (first : Bool) (piece : List Char) :
    advance spot piece = (Path.component? first piece).toList.foldl stride spot := by
  unfold advance Path.component?
  by_cases empty : piece = []
  · simp [empty]
  · by_cases dot : piece = ['.']
    · cases first <;> simp [dot, stride]
    · by_cases up : piece = ['.', '.'] <;> simp [empty, dot, up, stride]

theorem walk_eq (spot : Spot) (pieces : List (List Char)) : walk spot pieces = (Path.inner pieces).foldl stride spot := by
  induction pieces generalizing spot with
  | nil => rfl
  | cons piece rest ih =>
    rw [Path.inner_cons, List.foldl_append, ← advance_eq, ← ih]
    rfl

/-- Spellings of one path lead to one spot. -/
theorem spotOf_eq (fs : FileStore) (p : Path) : fs.spotOf p = p.components.foldl stride fs.home := by
  unfold spotOf route
  split
  next rest text =>
    have absolute : p.isAbsolute = true := Path.isAbsolute_iff.mpr ⟨rest, text⟩
    rw [Path.components_eq (Path.parts_of_absolute text), absolute, walk_eq]
    rfl
  next other =>
    have relative : p.isAbsolute = false := by
      rw [← Bool.not_eq_true, Path.isAbsolute_iff]
      rintro ⟨rest, text⟩
      exact other rest text
    cases split : p.parts with
    | nil => exact absurd split (Path.parts_ne_nil p)
    | cons first rest =>
      rw [Path.components_eq split, relative, ← Path.parts, split, List.foldl_append, List.foldl_append, ← advance_eq,
        ← walk_eq]
      rfl

theorem foldl_stride_names (spot : Spot) (names : List String) :
    (names.map Component.name).foldl stride spot = spot ++ names := by
  induction names generalizing spot with
  | nil => simp
  | cons name rest ih =>
    rw [List.map_cons, List.foldl_cons, ih]
    simp [stride]

theorem spotOf_join {fs : FileStore} {directory p : Path} {names : List String}
    (plain : p.components = names.map .name) : fs.spotOf (directory.join p) = fs.spotOf directory ++ names := by
  rw [spotOf_eq, Path.components_join_plain plain, List.foldl_append, foldl_stride_names, ← spotOf_eq]

/-- Below one directory, plain paths lead to one spot only if they are spellings of one path. -/
theorem same_of_spotOf_join {fs : FileStore} {directory p q : Path} (first : p.isPlain = true) (second : q.isPlain = true)
    (one : fs.spotOf (directory.join p) = fs.spotOf (directory.join q)) : p.same q = true := by
  obtain ⟨names, plain⟩ := Path.isPlain_iff.mp first
  obtain ⟨others, otherPlain⟩ := Path.isPlain_iff.mp second
  rw [spotOf_join plain, spotOf_join otherPlain] at one
  rw [Path.same, plain, otherPlain, List.append_cancel_left one]
  exact beq_self_eq_true _

end MarkerGen.FileStore
