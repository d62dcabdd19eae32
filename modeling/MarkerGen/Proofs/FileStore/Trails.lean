import MarkerGen.Proofs.FileStore.Changes
import Mathlib.Data.List.Induction

/-! Which spots a path leads through. Making a directory turns exactly these into directories, and
writing a file needs exactly that none of them is a file. -/
namespace MarkerGen.FileStore

def trail (spot : Spot) : List Component → List Spot
  | [] => []
  | c :: rest => stride spot c :: trail (stride spot c) rest

theorem trail_append (spot : Spot) (a b : List Component) :
    trail spot (a ++ b) = trail spot a ++ trail (a.foldl stride spot) b := by
  induction a generalizing spot with
  | nil => rfl
  | cons c rest ih =>
    rw [List.cons_append, trail, trail, ih]
    rfl

/-- The spots that pieces lead through, the first and the last one included. -/
def reach (spot : Spot) (pieces : List (List Char)) : List Spot := passed spot pieces ++ [walk spot pieces]

theorem reach_cons (spot : Spot) (piece : List Char) (rest : List (List Char)) :
    reach spot (piece :: rest) = spot :: reach (advance spot piece) rest := rfl

theorem passed_concat (spot : Spot) (front : List (List Char)) (last : List Char) :
    passed spot (front ++ [last]) = reach spot front := by
  induction front generalizing spot with
  | nil => rfl
  | cons piece rest ih => exact congrArg (spot :: ·) (ih (advance spot piece))

theorem mem_reach {spot s : Spot} {pieces : List (List Char)} :
    s ∈ reach spot pieces ↔ s = spot ∨ s ∈ trail spot (Path.inner pieces) := by
  induction pieces generalizing spot with
  | nil => simp [reach, passed, walk, Path.inner, trail]
  | cons piece rest ih =>
    rw [reach_cons, List.mem_cons, ih, Path.inner_cons, advance_eq spot false piece]
    cases Path.component? false piece with
    | none => simp
    | some c => simp [trail]

theorem above_directory {fs : FileStore} {s : Spot} (above : s <+: fs.home) : fs.lookup s = some .directory :=
  home_directory (List.isPrefixOf_iff_prefix.mpr above)

theorem not_file_of_directory {fs : FileStore} {s : Spot} (found : fs.lookup s = some .directory) : ¬ fs.HasFile s := by
  rintro ⟨content, file⟩
  rw [found] at file
  cases file

/-- A spot is a directory, and so is everything above it. -/
def Firm (fs : FileStore) (spot : Spot) : Prop := ∀ above, above <+: spot → fs.lookup above = some .directory

theorem firm_home (fs : FileStore) : fs.Firm fs.home := fun _ above => above_directory above

theorem Firm.higher {fs : FileStore} {spot above : Spot} (firm : fs.Firm spot) (first : above <+: spot) :
    fs.Firm above := fun higher start => firm higher (start.trans first)

theorem Firm.concat {fs : FileStore} {spot : Spot} {name : String} (firm : fs.Firm spot)
    (here : fs.lookup (spot ++ [name]) = some .directory) : fs.Firm (spot ++ [name]) := by
  intro above first
  rcases List.prefix_concat_iff.mp first with rfl | higher
  · exact here
  · exact firm above higher

theorem advance_unnamed {spot : Spot} {piece : List Char} (unnamed : piece = [] ∨ piece = ['.'] ∨ piece = ['.', '.']) :
    advance spot piece <+: spot := by
  unfold advance
  split
  · exact List.prefix_refl spot
  next still =>
    rw [if_pos ((or_assoc.mpr unnamed).resolve_left still)]
    exact List.dropLast_prefix spot

theorem advance_named {piece : List Char} (named : ¬ (piece = [] ∨ piece = ['.'] ∨ piece = ['.', '.'])) (spot : Spot) :
    advance spot piece = spot ++ [String.ofList piece] := by
  rw [not_or, not_or] at named
  rw [advance, if_neg (not_or.mpr ⟨named.1, named.2.1⟩), if_neg named.2.2]

/-- How making directories from a spot on ends: at a file, or with a directory at every spot on the
way. -/
inductive Making (fs : FileStore) (spot : Spot) (pieces : List (List Char)) : Prop
  | blocked {s : Spot} {error : FileError} (member : s ∈ reach spot pieces) (file : fs.HasFile s)
      (failed : fs.makeAlong spot pieces = .error error)
  | done {made : FileStore} (clear : ∀ s ∈ reach spot pieces, ¬ fs.HasFile s)
      (ok : fs.makeAlong spot pieces = .ok made)
      (lookup : ∀ s, made.lookup s = if s ∈ reach spot pieces then some .directory else fs.lookup s)

/-- One piece of the way is a directory, and the rest is made from a store that may have one directory
more. -/
theorem Making.cons {fs next : FileStore} {spot : Spot} {piece : List Char} {rest : List (List Char)}
    (later : Making next (advance spot piece) rest)
    (same : fs.makeAlong spot (piece :: rest) = next.makeAlong (advance spot piece) rest)
    (here : fs.lookup spot = some .directory) (files : ∀ s, next.HasFile s ↔ fs.HasFile s)
    (elsewhere : ∀ s, s ≠ advance spot piece → next.lookup s = fs.lookup s) : Making fs spot (piece :: rest) := by
  cases later with
  | blocked member file failed =>
    exact .blocked (List.mem_cons_of_mem _ member) ((files _).mp file) (same.trans failed)
  | done clear ok lookup =>
    refine .done ?_ (same.trans ok) fun s => ?_
    · intro s member file
      rcases List.mem_cons.mp member with rfl | behind
      · exact not_file_of_directory here file
      · exact clear s behind ((files s).mpr file)
    · rw [lookup s, reach_cons]
      by_cases behind : s ∈ reach (advance spot piece) rest
      · rw [if_pos behind, if_pos (List.mem_cons_of_mem _ behind)]
      · have other : s ≠ advance spot piece := by
          rintro rfl
          exact behind (mem_reach.mpr (.inl rfl))
        rw [if_neg behind, elsewhere s other]
        by_cases start : s = spot
        · rw [start, here, if_pos List.mem_cons_self]
        · rw [if_neg (by simp [start, behind])]

theorem making_nil {fs : FileStore} {spot : Spot} (here : fs.lookup spot = some .directory) : Making fs spot [] := by
  have only : reach spot [] = [spot] := rfl
  refine .done (fun s member => ?_) rfl fun s => ?_
  · rw [only, List.mem_singleton] at member
    rw [member]
    exact not_file_of_directory here
  · split
    next member =>
      rw [only, List.mem_singleton] at member
      rw [member, here]
    next => rfl

theorem making {fs : FileStore} {spot : Spot} (firm : fs.Firm spot) (pieces : List (List Char)) :
    Making fs spot pieces := by
  have here := firm spot (List.prefix_refl spot)
  induction pieces generalizing fs spot with
  | nil => exact making_nil here
  | cons piece rest ih =>
    by_cases unnamed : piece = [] ∨ piece = ['.'] ∨ piece = ['.', '.']
    · have firmNext := firm.higher (advance_unnamed unnamed)
      refine (ih firmNext (firmNext _ (List.prefix_refl _))).cons ?_ here (fun _ => Iff.rfl) fun _ _ => rfl
      rw [makeAlong_cons, if_pos unnamed]
    · have next := advance_named unnamed spot
      cases found : fs.lookup (advance spot piece) with
      | none =>
        have put := @lookup_put fs (advance spot piece) (by simp [found]) .directory
        have firmNext : (fs.put (advance spot piece) .directory).Firm (advance spot piece) := by
          rw [next]
          refine Firm.concat (fun above first => ?_) ?_
          · rw [← next, put]
            split
            · rfl
            · exact firm above first
          · rw [← next, put, if_pos rfl]
        refine (ih firmNext (firmNext _ (List.prefix_refl _))).cons ?_ here (fun s => ?_) fun s other => ?_
        · rw [makeAlong_cons, if_neg unnamed, found]
        · unfold HasFile
          rw [put]
          split
          next one => simp [one, found]
          next => rfl
        · rw [put, if_neg other]
      | some stored =>
        cases stored with
        | directory =>
          have firmNext : fs.Firm (advance spot piece) := by
            rw [next] at found ⊢
            exact firm.concat found
          refine (ih firmNext found).cons ?_ here (fun _ => Iff.rfl) fun _ _ => rfl
          rw [makeAlong_cons, if_neg unnamed, found]
        | file content =>
          have member : advance spot piece ∈ reach spot (piece :: rest) :=
            List.mem_cons_of_mem _ (mem_reach.mpr (.inl rfl))
          have failed := makeAlong_cons fs spot piece rest
          rw [if_neg unnamed, found] at failed
          exact .blocked member ⟨content, found⟩ failed

/-- The components of a path start as its route does. -/
theorem components_route (fs : FileStore) (p : Path) :
    ∃ lead, p.components = lead ++ Path.inner (fs.route p).2 ∧ (fs.route p).1 = lead.foldl stride fs.home ∧
      ∀ s ∈ trail fs.home lead, s <+: fs.home := by
  unfold route
  split
  next rest text =>
    have absolute : p.isAbsolute = true := Path.isAbsolute_iff.mpr ⟨rest, text⟩
    refine ⟨[.root], ?_, rfl, by simp [trail, stride]⟩
    rw [Path.components_eq (Path.parts_of_absolute text), absolute]
    rfl
  next other =>
    have relative : p.isAbsolute = false := by
      rw [← Bool.not_eq_true, Path.isAbsolute_iff]
      rintro ⟨rest, text⟩
      exact other rest text
    cases split : p.parts with
    | nil => exact absurd split (Path.parts_ne_nil p)
    | cons first rest =>
      rw [Path.components_eq split, relative, ← Path.parts, split, Path.inner_cons]
      by_cases dot : first = ['.']
      · subst dot
        exact ⟨[.here], rfl, rfl, by simp [trail, stride]⟩
      · refine ⟨[], ?_, rfl, by simp [trail]⟩
        have same : Path.component? true first = Path.component? false first := by simp [Path.component?, dot]
        rw [same]
        rfl

theorem start_above (fs : FileStore) (p : Path) : (fs.route p).1 <+: fs.home := by
  unfold route
  split
  · exact List.nil_prefix
  · exact List.prefix_refl _

theorem firm_start (fs : FileStore) (p : Path) : fs.Firm (fs.route p).1 := (firm_home fs).higher (start_above fs p)

section
variable (fs : FileStore) (p : Path) (s : Spot)

/-- Up to what is above the working directory, the lead of a path only says where it starts. -/
theorem mem_trail_lead {lead : List Component} (start : (fs.route p).1 = lead.foldl stride fs.home)
    (above : ∀ s ∈ trail fs.home lead, s <+: fs.home) (components : List Component) :
    s ∈ trail fs.home (lead ++ components) ∨ s <+: fs.home ↔
      (s = (fs.route p).1 ∨ s ∈ trail (fs.route p).1 components) ∨ s <+: fs.home := by
  rw [trail_append, ← start, List.mem_append]
  constructor
  · rintro ((led | behind) | higher)
    · exact .inr (above s led)
    · exact .inl (.inr behind)
    · exact .inr higher
  · rintro ((rfl | behind) | higher)
    · exact .inr (start_above fs p)
    · exact .inl (.inr behind)
    · exact .inr higher

theorem mem_trail_components :
    s ∈ trail fs.home p.components ∨ s <+: fs.home ↔ s ∈ reach (fs.route p).1 (fs.route p).2 ∨ s <+: fs.home := by
  obtain ⟨lead, whole, start, above⟩ := components_route fs p
  rw [whole, mem_reach]
  exact mem_trail_lead fs p s start above _

theorem mem_trail_parentOf :
    s ∈ trail fs.home (parentOf p).components ∨ s <+: fs.home ↔
      s ∈ trail fs.home p.components.dropLast ∨ s <+: fs.home := by
  have here : s ∈ trail fs.home (Path.mk ".").components ∨ s <+: fs.home ↔
      s ∈ trail fs.home (Path.mk "").components ∨ s <+: fs.home := by
    have dot : (Path.mk ".").components = [.here] := by decide
    have none : (Path.mk "").components = [] := by decide
    rw [dot, none]
    simp only [trail, stride, List.mem_singleton, List.not_mem_nil, false_or, or_iff_right_iff_imp]
    rintro rfl
    exact List.prefix_refl _
  rw [← Path.components_parent p, parentOf]
  cases p.parent? with
  | none => exact here
  | some parent =>
    dsimp only [Option.getD_some]
    split
    next empty =>
      rw [show parent = ⟨""⟩ from congrArg Path.mk (String.isEmpty_iff.mp empty)]
      exact here
    next => rfl

end

/-- The way to a file is that to its parent directory. -/
theorem mem_wayTo {fs : FileStore} {p : Path} (nonempty : p.text ≠ "") (plain : p.text.toList.getLast? ≠ some '/')
    (apart : fs.spotOf p ∉ fs.wayTo p) (s : Spot) :
    s ∈ fs.wayTo p ∨ s <+: fs.home ↔ s ∈ trail fs.home (parentOf p).components ∨ s <+: fs.home := by
  obtain ⟨front, last, pieces, full⟩ := @route_getLast fs p (by simpa using nonempty) plain
  have way : fs.wayTo p = reach (fs.route p).1 front := by rw [wayTo, pieces, passed_concat]
  have spot : fs.spotOf p = advance (walk (fs.route p).1 front) last := by
    rw [spotOf, pieces, walk, List.foldl_append]
    rfl
  have named : last ≠ ['.'] := by
    rintro rfl
    rw [way, spot] at apart
    exact apart (List.mem_append_right _ List.mem_cons_self)
  obtain ⟨c, loud⟩ : ∃ c, Path.component? false last = some c := by
    unfold Path.component?
    rw [if_neg full, if_neg named]
    split <;> exact ⟨_, rfl⟩
  obtain ⟨lead, whole, start, above⟩ := components_route fs p
  have parent : p.components.dropLast = lead ++ Path.inner front := by
    rw [whole, pieces, Path.inner_append, ← List.append_assoc, Path.inner_cons, loud]
    exact List.dropLast_concat
  rw [mem_trail_parentOf, parent, way, mem_reach]
  exact (mem_trail_lead fs p s start above _).symm

/-- A file can be put at a path: its way leads through no file and not through the spot of the path
itself, which is no directory. -/
structure Fits (fs : FileStore) (p : Path) : Prop where
  nonempty : p.text ≠ ""
  plain : p.text.toList.getLast? ≠ some '/'
  way : ∀ s ∈ fs.wayTo p, ¬ fs.HasFile s
  apart : fs.spotOf p ∉ fs.wayTo p
  free : fs.lookup (fs.spotOf p) ≠ some .directory

/-- The directories for a file that fits can be made, and they are those on its way. -/
theorem Fits.makes {fs : FileStore} {p : Path} (fits : fs.Fits p) :
    ∃ made, fs.makeDirectory (parentOf p) = .ok made ∧
      ∀ s, made.lookup s = if s ∈ fs.wayTo p then some .directory else fs.lookup s := by
  have spots (s : Spot) := (mem_wayTo fits.nonempty fits.plain fits.apart s).trans (mem_trail_components fs (parentOf p) s)
  cases making (firm_start fs (parentOf p)) (fs.route (parentOf p)).2 with
  | blocked member file failed =>
    rcases (spots _).mpr (.inl member) with onWay | above
    · exact absurd file (fits.way _ onWay)
    · exact absurd file (not_file_of_directory (above_directory above))
  | @done made clear ok lookup =>
    refine ⟨made, ok, fun s => ?_⟩
    rw [lookup s]
    by_cases above : s <+: fs.home
    · rw [above_directory above]
      simp
    · have same : s ∈ reach (fs.route (parentOf p)).1 (fs.route (parentOf p)).2 ↔ s ∈ fs.wayTo p := by
        simpa [above] using (spots s).symm
      simp only [same]

theorem Fits.writes {fs : FileStore} {p : Path} (fits : fs.Fits p) (content : ByteArray) :
    ∃ next, fs.writeFile p content = (next, .ok ()) ∧
      ∀ s, next.lookup s = if s = fs.spotOf p then some (.file content)
        else if s ∈ fs.wayTo p then some .directory else fs.lookup s := by
  obtain ⟨made, ok, lookup⟩ := fits.makes
  have home := (makeDirectory_grows ok).home
  have way : made.Open (made.wayTo p) := by
    intro s member
    rw [wayTo_congr home] at member
    rw [lookup, if_pos member]
  have free : made.lookup (made.spotOf p) ≠ some .directory := by
    rw [spotOf_congr home, lookup, if_neg fits.apart]
    exact fits.free
  refine ⟨made.put (made.spotOf p) (.file content), ?_, fun s => ?_⟩
  · exact writeFile_ok_iff.mpr ⟨made, ok, replace_ok_iff.mpr ⟨fits.nonempty, fits.plain, way, free, rfl⟩⟩
  · rw [lookup_put free, spotOf_congr home, lookup]

theorem fits_of_writeFile {fs next : FileStore} {p : Path} {content : ByteArray}
    (ok : fs.writeFile p content = (next, .ok ())) : fs.Fits p := by
  obtain ⟨made, parentMade, replaced⟩ := writeFile_ok_iff.mp ok
  obtain ⟨nonempty, plain, way, free, _⟩ := replace_ok_iff.mp replaced
  have grown := makeDirectory_grows parentMade
  rw [spotOf_congr grown.home] at free
  rw [wayTo_congr grown.home] at way
  refine ⟨nonempty, plain, ?_, ?_, ?_⟩
  · rintro s member ⟨content, found⟩
    rcases grown.lookup s with same | ⟨empty, _⟩
    · rw [way s member, found] at same
      cases same
    · rw [found] at empty
      cases empty
  · exact fun onWay => free (way _ onWay)
  · exact fun directory => free (grown.keeps.directories _ directory)

/-- A slash at the end of a path leads through the spot of the path itself. -/
theorem slash_onWay {fs : FileStore} {p : Path} (slash : p.text.toList.getLast? = some '/') :
    fs.spotOf p ∈ fs.wayTo p := by
  have ending (text : List Char) (last : text.getLast? = some '/') :
      ∃ front, Chars.splitAt (· == '/') text = front ++ [[]] := by
    obtain ⟨front, rfl⟩ := List.getLast?_eq_some_iff.mp last
    exact ⟨_, Chars.splitAt_append_cons front [] rfl⟩
  obtain ⟨front, pieces⟩ : ∃ front, (fs.route p).2 = front ++ [[]] := by
    unfold route
    split
    next rest text =>
      rw [text] at slash
      cases rest with
      | nil => exact ⟨[], rfl⟩
      | cons c rest => exact ending (c :: rest) (by simpa using slash)
    next => exact ending _ slash
  rw [spotOf, wayTo, pieces, passed_concat, walk, List.foldl_append]
  exact List.mem_append_right _ List.mem_cons_self

theorem fits_of_read {fs : FileStore} {p : Path} {content : ByteArray} (read : fs.read p = .ok content) : fs.Fits p := by
  obtain ⟨nonempty, way, found⟩ := read_ok_iff.mp read
  have apart : fs.spotOf p ∉ fs.wayTo p := by
    intro onWay
    rw [way _ onWay] at found
    cases found
  exact ⟨nonempty, fun slash => apart (slash_onWay slash), fun s member => not_file_of_directory (way s member), apart,
    by simp [found]⟩

theorem follow_clear {fs : FileStore} {spot : Spot} {pieces : List (List Char)}
    (clear : ∀ s ∈ passed spot pieces, ¬ fs.HasFile s) :
    fs.follow spot pieces = .ok (walk spot pieces) ∨ fs.follow spot pieces = .error .notFound := by
  induction pieces generalizing spot with
  | nil => exact .inl rfl
  | cons piece rest ih =>
    obtain ⟨here, later⟩ := List.forall_mem_cons.mp clear
    cases found : fs.lookup spot with
    | none => exact .inr (by rw [follow, found])
    | some stored =>
      cases stored with
      | directory =>
        rw [follow_directory found]
        exact ih later
      | file content => exact absurd ⟨content, found⟩ here

theorem Fits.read {fs : FileStore} {p : Path} (fits : fs.Fits p) :
    (∃ content, fs.read p = .ok content) ∨ fs.read p = .error .notFound := by
  have located : fs.locate p = .ok (fs.spotOf p) ∨ fs.locate p = .error .notFound := by
    rw [locate, if_neg fits.nonempty]
    exact follow_clear fits.way
  rcases located with there | missing
  · cases found : fs.lookup (fs.spotOf p) with
    | none =>
      right
      simp [FileStore.read, stat, there, found, bind, Except.bind, throw, throwThe, MonadExceptOf.throw]
    | some stored =>
      cases stored with
      | directory => exact absurd found fits.free
      | file content =>
        obtain ⟨_, way, _⟩ := locate_ok_iff.mp there
        exact .inl ⟨content, read_ok_iff.mpr ⟨fits.nonempty, way, found⟩⟩
  · right
    simp [FileStore.read, stat, missing, bind, Except.bind]

/-- Whatever is stored lies in a directory. -/
def Rooted (fs : FileStore) : Prop := ∀ s, fs.lookup s ≠ none → fs.lookup s.dropLast = some .directory

theorem Rooted.above {fs : FileStore} (rooted : fs.Rooted) {top : Spot} {names : List String}
    (found : fs.lookup (top ++ names) ≠ none) (below : names ≠ []) : fs.lookup top = some .directory := by
  induction names using List.reverseRecOn with
  | nil => exact absurd rfl below
  | append_singleton front last ih =>
    have parent := rooted _ found
    rw [← List.append_assoc, List.dropLast_concat] at parent
    by_cases empty : front = []
    · rwa [empty, List.append_nil] at parent
    · exact ih (by rw [parent]; simp) empty

theorem rooted_of_entries {fs : FileStore}
    (inside : ∀ entry ∈ fs.entries, (fs.lookup entry.1.dropLast).any Stored.isDirectory = true) : fs.Rooted := by
  intro s found
  by_cases above : s <+: fs.home
  · have parent : s.dropLast <+: s := List.dropLast_prefix s
    exact above_directory (parent.trans above)
  · rw [lookup, if_neg (by simpa using above)] at found
    obtain ⟨entry, member, same⟩ : ∃ entry ∈ fs.entries, entry.1 = s := by simpa using found
    rw [← same]
    exact (isDirectory_any _).mp (inside entry member)

theorem Rooted.put {fs : FileStore} (rooted : fs.Rooted) {spot : Spot} (empty : fs.lookup spot = none)
    (parent : fs.lookup spot.dropLast = some .directory) : (fs.put spot .directory).Rooted := by
  have free : fs.lookup spot ≠ some .directory := by simp [empty]
  intro s found
  rw [lookup_put free] at found ⊢
  split
  · rfl
  · split at found
    next same => exact same ▸ parent
    next => exact rooted s found

theorem Rooted.makeAlong {fs made : FileStore} (rooted : fs.Rooted) {spot : Spot} {pieces : List (List Char)}
    (here : fs.lookup spot = some .directory) (ok : fs.makeAlong spot pieces = .ok made) : made.Rooted := by
  induction pieces generalizing fs spot with
  | nil =>
    cases ok
    exact rooted
  | cons piece rest ih =>
    rw [makeAlong_cons] at ok
    split at ok
    next still =>
      refine ih rooted ?_ ok
      unfold advance
      split
      · exact here
      · rw [if_pos (by tauto)]
        exact rooted spot (by simp [here])
    next named =>
      split at ok
      next there => exact ih rooted there ok
      next => cases ok
      next empty =>
        have parent : (advance spot piece).dropLast = spot := by
          unfold advance
          rw [if_neg (by tauto), if_neg (by tauto), List.dropLast_concat]
        have put := rooted.put empty (parent.symm ▸ here)
        exact ih put (by rw [lookup_put (by simp [empty]), if_pos rfl]) ok

theorem Rooted.makeDirectory {fs made : FileStore} (rooted : fs.Rooted) {p : Path}
    (ok : fs.makeDirectory p = .ok made) : made.Rooted :=
  rooted.makeAlong (above_directory (start_above fs p)) ok

/-- If there is a directory where a path leads, the path gets there. This can only fail for a path
that goes up again from a directory that is not there. -/
def Passable (fs : FileStore) (p : Path) : Prop :=
  fs.lookup (fs.spotOf p) = some .directory → fs.Open (fs.wayTo p)

theorem passable_of_made {fs made : FileStore} {p : Path} (ok : fs.makeDirectory p = .ok made) : made.Passable p := by
  intro _ s member
  rw [wayTo_congr (makeDirectory_grows ok).home] at member
  cases making (firm_start fs p) (fs.route p).2 with
  | blocked _ _ failed =>
    rw [makeDirectory, failed] at ok
    cases ok
  | done _ done lookup =>
    rw [makeDirectory, done] at ok
    cases ok
    have onWay : s ∈ reach (fs.route p).1 (fs.route p).2 := List.mem_append_left _ member
    rw [lookup, if_pos onWay]

theorem trail_names {spot s : Spot} {names : List String} (member : s ∈ trail spot (names.map .name)) :
    ∃ front, front <+: names ∧ s = spot ++ front := by
  induction names generalizing spot with
  | nil => cases member
  | cons name rest ih =>
    rcases List.mem_cons.mp member with rfl | later
    · exact ⟨[name], by simp, rfl⟩
    · obtain ⟨front, first, rfl⟩ := ih later
      exact ⟨name :: front, List.cons_prefix_cons.mpr ⟨rfl, first⟩, by simp [stride]⟩

theorem names_of_fits {fs : FileStore} {directory p : Path} {names : List String}
    (plain : p.components = names.map .name) (fits : fs.Fits (directory.join p)) : names ≠ [] := by
  rintro rfl
  have empty := Path.text_of_bare plain
  by_cases base : directory.text.toList = []
  · rw [Path.join_of_empty base] at fits
    exact fits.nonempty empty
  · obtain ⟨front, joined, _⟩ := Path.join_text (Path.relative_of_plain plain) base
    apply fits.plain
    rw [joined, empty]
    simp

/-- The way to a file below a directory is that to the directory, and then down. -/
theorem wayTo_below {fs : FileStore} {directory p : Path} {names : List String}
    (plain : p.components = names.map .name) (fits : fs.Fits (directory.join p)) {s : Spot}
    (member : s ∈ fs.wayTo (directory.join p)) :
    s <+: fs.home ∨ s ∈ fs.wayTo directory ∨
      ∃ front back, back ≠ [] ∧ names = front ++ back ∧ s = fs.spotOf directory ++ front := by
  have below := names_of_fits plain fits
  have spots := (mem_wayTo fits.nonempty fits.plain fits.apart s).mp (.inl member)
  rw [mem_trail_parentOf, Path.components_join_plain plain, List.dropLast_append_of_ne_nil (by simpa using below),
    trail_append, ← spotOf_eq, ← List.map_dropLast, List.mem_append] at spots
  rcases spots with (led | further) | above
  · rcases (mem_trail_components fs directory s).mp (.inl led) with reached | above
    · rcases List.mem_append.mp reached with onWay | last
      · exact .inr (.inl onWay)
      · exact .inr (.inr ⟨[], names, below, rfl, by rw [List.mem_singleton.mp last, List.append_nil]; rfl⟩)
    · exact .inl above
  · obtain ⟨front, ⟨back, whole⟩, rfl⟩ := trail_names further
    refine .inr (.inr ⟨front, back ++ [names.getLast below], by simp, ?_, rfl⟩)
    rw [← List.append_assoc, whole, List.dropLast_concat_getLast]
  · exact .inl above

/-- A file that is already there below a passable directory is reached. -/
theorem open_of_file {fs : FileStore} (rooted : fs.Rooted) {directory p : Path} (passable : fs.Passable directory)
    (plain : p.isPlain = true) (fits : fs.Fits (directory.join p)) (file : fs.HasFile (fs.spotOf (directory.join p))) :
    fs.Open (fs.wayTo (directory.join p)) := by
  obtain ⟨names, plain⟩ := Path.isPlain_iff.mp plain
  obtain ⟨content, found⟩ := file
  rw [spotOf_join plain] at found
  intro s member
  rcases wayTo_below plain fits member with above | onWay | ⟨front, back, deeper, rfl, rfl⟩
  · exact above_directory above
  · have there := rooted.above (by rw [found]; simp) (names_of_fits plain fits)
    exact passable there s onWay
  · rw [← List.append_assoc] at found
    exact rooted.above (by rw [found]; simp) deeper

theorem inner_names {pieces : List (List Char)} (straight : .up ∉ Path.inner pieces) :
    ∃ names : List String, Path.inner pieces = names.map .name := by
  induction pieces with
  | nil => exact ⟨[], rfl⟩
  | cons piece rest ih =>
    rw [Path.inner_cons] at straight ⊢
    obtain ⟨names, whole⟩ := ih fun up => straight (List.mem_append_right _ up)
    rw [whole]
    unfold Path.component? at straight ⊢
    by_cases empty : piece = []
    · exact ⟨names, by simp [empty]⟩
    · by_cases dot : piece = ['.']
      · exact ⟨names, by simp [dot]⟩
      · by_cases up : piece = ['.', '.']
        · simp [up] at straight
        · exact ⟨String.ofList piece :: names, by simp [empty, dot, up]⟩

/-- A path without `..` is passable. -/
theorem passable_of_straight {fs : FileStore} (rooted : fs.Rooted) {p : Path} (straight : .up ∉ p.components) :
    fs.Passable p := by
  intro there s member
  obtain ⟨lead, whole, start, _⟩ := components_route fs p
  obtain ⟨names, named⟩ := @inner_names (fs.route p).2 fun up => straight (whole ▸ List.mem_append_right _ up)
  have last : fs.spotOf p = (fs.route p).1 ++ names := by
    rw [spotOf_eq, whole, List.foldl_append, ← start, named, foldl_stride_names]
  have onWay : s ∈ reach (fs.route p).1 (fs.route p).2 := List.mem_append_left _ member
  rcases mem_reach.mp onWay with rfl | behind
  · exact above_directory (start_above fs p)
  · rw [named] at behind
    obtain ⟨front, ⟨back, rfl⟩, rfl⟩ := trail_names behind
    rw [last, ← List.append_assoc] at there
    by_cases final : back = []
    · rwa [final, List.append_nil] at there
    · exact rooted.above (by rw [there]; simp) final

end MarkerGen.FileStore
