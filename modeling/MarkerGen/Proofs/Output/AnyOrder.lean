import MarkerGen.Proofs.FileStore.Trails
import MarkerGen.Proofs.Output.Collisions
import MarkerGen.Proofs.Output.Stale

/-! The order in which batches reach a writer. Whether all of them can be written is a condition on
their fragments together, and so is what is stored in the end. Only a file that is there but cannot be
reached yet would let the order show. -/
namespace MarkerGen.Writer

open FileStore

/-- The spot of the file of a fragment. -/
def place (outDir : Path) (fs : FileStore) (f : Fragment) : Spot := fs.spotOf (outDir.join f.output)

def way (outDir : Path) (fs : FileStore) (f : Fragment) : List Spot := fs.wayTo (outDir.join f.output)

theorem place_congr {outDir : Path} {fs next : FileStore} (home : next.home = fs.home) (f : Fragment) :
    place outDir next f = place outDir fs f := spotOf_congr home _

theorem way_congr {outDir : Path} {fs next : FileStore} (home : next.home = fs.home) (f : Fragment) :
    way outDir next f = way outDir fs f := wayTo_congr home _

/-- Whether the file of a fragment is there and as it should be. -/
def Unchanged (outDir : Path) (fs : FileStore) (f : Fragment) : Prop :=
  fs.fingerprint (outDir.join f.output) = .ok (some f.fingerprint)

instance (outDir : Path) (fs : FileStore) (f : Fragment) : Decidable (Unchanged outDir fs f) :=
  inferInstanceAs (Decidable (_ = _))

/-- The record of a fragment that is written to a store. -/
def answer (outDir : Path) (fs : FileStore) (f : Fragment) : WriteRecord :=
  record f (if Unchanged outDir fs f then .unchanged else .written)

/-- What is stored where a fragment leads after it is written to a store. -/
def outcome (outDir : Path) (fs : FileStore) (f : Fragment) : Option Stored :=
  if Unchanged outDir fs f then fs.lookup (place outDir fs f) else some (.file f.contents.toUTF8)

/-- What writing fragments does to a store, in terms of the store before. -/
structure Landed (outDir : Path) (fs : FileStore) (fragments : List Fragment) (final : FileStore) : Prop where
  home : final.home = fs.home
  files : ∀ f ∈ fragments, final.lookup (place outDir fs f) = outcome outDir fs f
  ways : ∀ f ∈ fragments, final.Open (way outDir fs f)
  elsewhere : ∀ s, (∀ f ∈ fragments, s ≠ place outDir fs f ∧ s ∉ way outDir fs f) →
    final.lookup s = fs.lookup s

variable {outDir : Path} {fs next final : FileStore} {f : Fragment} {fragments rest : List Fragment}

theorem Unchanged.reaches (unchanged : Unchanged outDir fs f) :
    fs.Reaches (outDir.join f.output) ∧ fs.Holds (place outDir fs f) f.fingerprint :=
  fingerprint_eq_iff.mp unchanged

theorem outcome_file (outDir : Path) (fs : FileStore) (f : Fragment) :
    ∃ content, outcome outDir fs f = some (.file content) := by
  unfold outcome
  split
  next unchanged => exact unchanged.reaches.2.hasFile
  next => exact ⟨_, rfl⟩

theorem fits_of_ok {r : WriteRecord} (ok : writeFragment outDir fs f = (next, .ok r)) :
    fs.Fits (outDir.join f.output) := by
  rcases writeFragment_ok ok with ⟨there, _, _⟩ | ⟨written, _⟩
  · obtain ⟨⟨nonempty, way⟩, content, found, _⟩ := fingerprint_eq_iff.mp there
    exact fits_of_read (read_ok_iff.mpr ⟨nonempty, way, found⟩)
  · exact fits_of_writeFile written

theorem writeFragment_fits (fits : fs.Fits (outDir.join f.output)) :
    ∃ next, writeFragment outDir fs f = (next, .ok (answer outDir fs f)) ∧ Landed outDir fs [f] next := by
  by_cases unchanged : Unchanged outDir fs f
  · refine ⟨fs, ?_, rfl, ?_, ?_, fun _ _ => rfl⟩
    · rw [writeFragment_settled unchanged, answer, if_pos unchanged]
    · intro g member
      rw [List.mem_singleton.mp member, outcome, if_pos unchanged]
    · intro g member
      rw [List.mem_singleton.mp member]
      exact unchanged.reaches.1.2
  · obtain ⟨next, written, lookup⟩ : ∃ next, fs.writeFile (outDir.join f.output) f.contents.toUTF8 = (next, .ok ()) ∧
        ∀ s, next.lookup s = if s = place outDir fs f then some (.file f.contents.toUTF8)
          else if s ∈ way outDir fs f then some .directory else fs.lookup s := fits.writes f.contents.toUTF8
    refine ⟨next, ?_, (writeFile_wrote written).keeps.home, ?_, ?_, fun s away => ?_⟩
    · have other : ∃ existing, fs.fingerprint (outDir.join f.output) = .ok existing ∧ existing ≠ some f.fingerprint := by
        rcases fits.read with ⟨content, read⟩ | missing
        · have found : fs.fingerprint (outDir.join f.output) = .ok (some (Digest.fingerprint content)) := by
            rw [FileStore.fingerprint, read]
          refine ⟨_, found, fun same => unchanged ?_⟩
          rw [Unchanged, found, same]
        · exact ⟨none, by rw [FileStore.fingerprint, missing], by simp⟩
      obtain ⟨existing, found, different⟩ := other
      unfold writeFragment
      dsimp only
      rw [found]
      dsimp only
      rw [if_neg different, written, answer, if_neg unchanged]
      rfl
    · intro g member
      rw [List.mem_singleton.mp member, outcome, if_neg unchanged, lookup, if_pos rfl]
    · intro g member s onWay
      rw [List.mem_singleton.mp member] at onWay
      rw [lookup, if_pos onWay, if_neg]
      rintro rfl
      exact fits.apart onWay
    · obtain ⟨notThere, offWay⟩ := away f (List.mem_singleton_self f)
      rw [lookup, if_neg notThere, if_neg offWay]

theorem Landed.off (landed : Landed outDir fs [f] next) {s : Spot} (notThere : s ≠ place outDir fs f)
    (offWay : s ∉ way outDir fs f) : next.lookup s = fs.lookup s := by
  apply landed.elsewhere
  intro g member
  rw [List.mem_singleton.mp member]
  exact ⟨notThere, offWay⟩

theorem Landed.keeps (landed : Landed outDir fs [f] next) (fits : fs.Fits (outDir.join f.output)) : Keeps fs next := by
  refine ⟨landed.home, fun s found => ?_⟩
  by_cases onWay : s ∈ way outDir fs f
  · exact landed.ways f (List.mem_singleton_self f) s onWay
  · have notThere : s ≠ place outDir fs f := by
      rintro rfl
      exact fits.free found
    rw [landed.off notThere onWay, found]

/-- What is left to be written fits after a fragment was written exactly if it did before and neither
stands in the way of the other. -/
theorem Landed.fits_iff (landed : Landed outDir fs [f] next) (fits : fs.Fits (outDir.join f.output)) {g : Fragment} :
    next.Fits (outDir.join g.output) ↔ fs.Fits (outDir.join g.output) ∧ place outDir fs f ∉ way outDir fs g ∧
      place outDir fs g ∉ way outDir fs f := by
  have self := List.mem_singleton_self f
  have file : next.HasFile (place outDir fs f) := by
    obtain ⟨content, found⟩ := outcome_file outDir fs f
    exact ⟨content, (landed.files f self).trans found⟩
  have files (s : Spot) (notThere : s ≠ place outDir fs f) : next.HasFile s ↔ fs.HasFile s := by
    by_cases onWay : s ∈ way outDir fs f
    · exact iff_of_false (not_file_of_directory (landed.ways f self s onWay)) (fits.way s onWay)
    · rw [HasFile, HasFile, landed.off notThere onWay]
  constructor
  · intro later
    have onward := later.way
    have apart := later.apart
    have free := later.free
    rw [wayTo_congr landed.home] at onward apart
    rw [spotOf_congr landed.home] at apart free
    have clear : place outDir fs f ∉ way outDir fs g := fun onWay => onward _ onWay file
    refine ⟨⟨later.nonempty, later.plain, fun s member => ?_, apart, ?_⟩, clear, ?_⟩
    · rw [← files s]
      · exact onward s member
      · rintro rfl
        exact clear member
    · exact fun directory => free ((landed.keeps fits).directories _ directory)
    · exact fun onWay => free (landed.ways f self _ onWay)
  · rintro ⟨before, clear, apart⟩
    refine ⟨before.nonempty, before.plain, ?_, ?_, ?_⟩
    · intro s member
      rw [wayTo_congr landed.home] at member
      rw [files s]
      · exact before.way s member
      · rintro rfl
        exact clear member
    · rw [wayTo_congr landed.home, spotOf_congr landed.home]
      exact before.apart
    · rw [spotOf_congr landed.home, ← place]
      by_cases one : place outDir fs g = place outDir fs f
      · rw [one]
        exact fun directory => not_file_of_directory directory file
      · rw [landed.off one apart]
        exact before.free

/-- Fragments that can all be written: each of them fits, and none stands in the way of another. -/
structure Feasible (outDir : Path) (fs : FileStore) (fragments : List Fragment) : Prop where
  fits : ∀ f ∈ fragments, fs.Fits (outDir.join f.output)
  clear : ∀ f ∈ fragments, ∀ g ∈ fragments, place outDir fs f ∉ way outDir fs g

theorem feasible_congr {others : List Fragment} (same : ∀ f, f ∈ fragments ↔ f ∈ others) :
    Feasible outDir fs fragments ↔ Feasible outDir fs others := by
  constructor
  · rintro ⟨fits, clear⟩
    exact ⟨fun f member => fits f ((same f).mpr member),
      fun f first g second => clear f ((same f).mpr first) g ((same g).mpr second)⟩
  · rintro ⟨fits, clear⟩
    exact ⟨fun f member => fits f ((same f).mp member),
      fun f first g second => clear f ((same f).mp first) g ((same g).mp second)⟩

theorem Landed.feasible_iff (landed : Landed outDir fs [f] next) (fits : fs.Fits (outDir.join f.output)) :
    Feasible outDir next rest ↔ Feasible outDir fs (f :: rest) := by
  constructor
  · rintro ⟨later, clear⟩
    have each (g : Fragment) (member : g ∈ rest) := (landed.fits_iff fits).mp (later g member)
    refine ⟨List.forall_mem_cons.mpr ⟨fits, fun g member => (each g member).1⟩, fun a first b second => ?_⟩
    rcases List.mem_cons.mp first with rfl | inRest <;> rcases List.mem_cons.mp second with rfl | alsoInRest
    · exact fits.apart
    · exact (each b alsoInRest).2.1
    · exact (each a inRest).2.2
    · have between := clear a inRest b alsoInRest
      rwa [place_congr landed.home, way_congr landed.home] at between
  · rintro ⟨before, clear⟩
    refine ⟨fun g member => (landed.fits_iff fits).mpr ⟨before g (List.mem_cons_of_mem _ member), ?_, ?_⟩,
      fun a first b second => ?_⟩
    · exact clear f List.mem_cons_self g (List.mem_cons_of_mem _ member)
    · exact clear g (List.mem_cons_of_mem _ member) f List.mem_cons_self
    · rw [place_congr landed.home, way_congr landed.home]
      exact clear a (List.mem_cons_of_mem _ first) b (List.mem_cons_of_mem _ second)

theorem isOk_map {α β : Type} (result : Except WriteError α) (g : α → β) : (result.map g).isOk = result.isOk := by
  cases result <;> rfl

theorem isOk_iff {α : Type} {result : Except WriteError α} : result.isOk = true ↔ ∃ value, result = .ok value := by
  cases result with
  | error error => simp [Except.isOk, Except.toBool]
  | ok value => simp [Except.isOk, Except.toBool]

/-- Fragments can be written one after the other exactly if they can all be written. -/
theorem writeAll_isOk_iff : (writeAll outDir fs fragments).2.isOk = true ↔ Feasible outDir fs fragments := by
  induction fragments generalizing fs with
  | nil => exact iff_of_true rfl ⟨List.forall_mem_nil _, fun f member => by cases member⟩
  | cons f rest ih =>
    by_cases fits : fs.Fits (outDir.join f.output)
    · obtain ⟨next, written, landed⟩ := writeFragment_fits fits
      rw [← landed.feasible_iff fits, ← ih, writeAll_step, written]
      exact iff_of_eq (congrArg (· = true) (isOk_map _ _))
    · refine iff_of_false (fun ok => ?_) fun feasible => fits (feasible.fits f List.mem_cons_self)
      obtain ⟨records, whole⟩ := isOk_iff.mp ok
      obtain ⟨next, r, _, written, _, _⟩ := writeAll_cons (Prod.ext rfl whole)
      exact fits (fits_of_ok written)

/-- Fragments with files apart from each other, each of which is reached if it is there. -/
structure Independent (outDir : Path) (fs : FileStore) (fragments : List Fragment) : Prop where
  places : fragments.Pairwise fun f g => place outDir fs f ≠ place outDir fs g
  shown : ∀ f ∈ fragments, fs.HasFile (place outDir fs f) → fs.Open (way outDir fs f)

theorem unchanged_iff (nonempty : (outDir.join f.output).text ≠ "")
    (shown : fs.HasFile (place outDir fs f) → fs.Open (way outDir fs f)) :
    Unchanged outDir fs f ↔ fs.Holds (place outDir fs f) f.fingerprint := by
  constructor
  · exact fun unchanged => unchanged.reaches.2
  · intro holds
    exact fingerprint_eq_iff.mpr ⟨⟨nonempty, shown holds.hasFile⟩, holds⟩

/-- What a fragment comes to is not changed by another one that is written before it. -/
theorem Landed.same (landed : Landed outDir fs [f] next) (feasible : Feasible outDir fs (f :: rest))
    (independent : Independent outDir fs (f :: rest)) {g : Fragment} (member : g ∈ rest) :
    next.lookup (place outDir fs g) = fs.lookup (place outDir fs g) ∧
      (Unchanged outDir next g ↔ Unchanged outDir fs g) := by
  have later := List.mem_cons_of_mem f member
  have fits := feasible.fits f List.mem_cons_self
  have lookup : next.lookup (place outDir fs g) = fs.lookup (place outDir fs g) :=
    landed.off ((List.pairwise_cons.mp independent.places).1 g member).symm (feasible.clear g later f List.mem_cons_self)
  refine ⟨lookup, ?_⟩
  have nonempty := (feasible.fits g later).nonempty
  have shownNext : next.HasFile (place outDir next g) → next.Open (way outDir next g) := by
    rw [place_congr landed.home, way_congr landed.home, HasFile, lookup]
    exact fun file => (landed.keeps fits).way (independent.shown g later file)
  rw [unchanged_iff nonempty shownNext, unchanged_iff nonempty (independent.shown g later), place_congr landed.home, Holds,
    Holds, lookup]

theorem Landed.independent (landed : Landed outDir fs [f] next) (feasible : Feasible outDir fs (f :: rest))
    (independent : Independent outDir fs (f :: rest)) : Independent outDir next rest := by
  refine ⟨?_, fun g member => ?_⟩
  · simp only [place_congr landed.home]
    exact (List.pairwise_cons.mp independent.places).2
  · rw [place_congr landed.home, way_congr landed.home, HasFile, (landed.same feasible independent member).1]
    intro file
    have keeps := landed.keeps (feasible.fits f List.mem_cons_self)
    exact keeps.way (independent.shown g (List.mem_cons_of_mem f member) file)

theorem Landed.cons (first : Landed outDir fs [f] next) (later : Landed outDir next rest final)
    (feasible : Feasible outDir fs (f :: rest)) (independent : Independent outDir fs (f :: rest)) :
    Landed outDir fs (f :: rest) final := by
  have self := List.mem_singleton_self f
  -- What is on none of the later ways is as the first fragment left it.
  have kept (s : Spot) (away : ∀ g ∈ rest, s ≠ place outDir fs g ∧ s ∉ way outDir fs g) :
      final.lookup s = next.lookup s := by
    apply later.elsewhere
    intro g member
    rw [place_congr first.home, way_congr first.home]
    exact away g member
  have laterWays (g : Fragment) (member : g ∈ rest) : final.Open (way outDir fs g) := by
    rw [← way_congr first.home]
    exact later.ways g member
  refine ⟨later.home.trans first.home, List.forall_mem_cons.mpr ⟨?_, fun g member => ?_⟩,
    List.forall_mem_cons.mpr ⟨fun s onWay => ?_, laterWays⟩, fun s away => ?_⟩
  · rw [kept, first.files f self]
    intro g member
    exact ⟨(List.pairwise_cons.mp independent.places).1 g member,
      feasible.clear f List.mem_cons_self g (List.mem_cons_of_mem f member)⟩
  · obtain ⟨lookup, same⟩ := first.same feasible independent member
    rw [← place_congr first.home, later.files g member, outcome, outcome, place_congr first.home, lookup]
    simp only [same]
  · by_cases onLater : ∃ g ∈ rest, s ∈ way outDir fs g
    · obtain ⟨g, member, onWayToo⟩ := onLater
      exact laterWays g member s onWayToo
    · rw [kept, first.ways f self s onWay]
      intro g member
      refine ⟨?_, fun onWayToo => onLater ⟨g, member, onWayToo⟩⟩
      rintro rfl
      exact feasible.clear g (List.mem_cons_of_mem f member) f List.mem_cons_self onWay
  · obtain ⟨here, others⟩ := List.forall_mem_cons.mp away
    rw [kept s others, first.off here.1 here.2]

/-- Every fragment gets the record that it would get as the first one. -/
theorem writeAll_landed (feasible : Feasible outDir fs fragments) (independent : Independent outDir fs fragments) :
    ∃ final, writeAll outDir fs fragments = (final, .ok (fragments.map (answer outDir fs))) ∧
      Landed outDir fs fragments final := by
  induction fragments generalizing fs with
  | nil => exact ⟨fs, rfl, rfl, List.forall_mem_nil _, List.forall_mem_nil _, fun _ _ => rfl⟩
  | cons f rest ih =>
    have fits := feasible.fits f List.mem_cons_self
    obtain ⟨next, written, landed⟩ := writeFragment_fits fits
    obtain ⟨final, others, later⟩ := ih ((landed.feasible_iff fits).mpr feasible) (landed.independent feasible independent)
    have answers : rest.map (answer outDir next) = rest.map (answer outDir fs) := by
      apply List.map_congr_left
      intro g member
      rw [answer, answer]
      simp only [(landed.same feasible independent member).2]
    refine ⟨final, ?_, landed.cons later feasible independent⟩
    rw [writeAll_step, written]
    dsimp only
    rw [others, answers]
    rfl

/-- What is stored in the end depends on which fragments were written, not on their order. -/
theorem Landed.lookup_eq {other : FileStore} {others : List Fragment} (first : Landed outDir fs fragments final)
    (second : Landed outDir fs others other) (same : ∀ f, f ∈ fragments ↔ f ∈ others) (s : Spot) :
    final.lookup s = other.lookup s := by
  by_cases there : ∃ f ∈ fragments, s = place outDir fs f
  · obtain ⟨f, member, rfl⟩ := there
    rw [first.files f member, second.files f ((same f).mp member)]
  · by_cases onWay : ∃ f ∈ fragments, s ∈ way outDir fs f
    · obtain ⟨f, member, passes⟩ := onWay
      rw [first.ways f member s passes, second.ways f ((same f).mp member) s passes]
    · have away (f : Fragment) (member : f ∈ fragments) :
          s ≠ place outDir fs f ∧ s ∉ way outDir fs f :=
        ⟨fun one => there ⟨f, member, one⟩, fun passes => onWay ⟨f, member, passes⟩⟩
      rw [first.elsewhere s away, second.elsewhere s fun f member => away f ((same f).mpr member)]

theorem writeAll_elsewhere {records : List WriteRecord} (ok : writeAll outDir fs fragments = (final, .ok records)) {s : Spot}
    (away : ∀ f ∈ fragments, s ≠ place outDir fs f ∧ s ∉ way outDir fs f) : final.lookup s = fs.lookup s := by
  induction fragments generalizing fs records with
  | nil =>
    cases ok
    rfl
  | cons f rest ih =>
    obtain ⟨next, r, others, written, later, rfl⟩ := writeAll_cons ok
    obtain ⟨landing, again, landed⟩ := writeFragment_fits (fits_of_ok written)
    rw [written] at again
    cases again
    obtain ⟨here, behind⟩ := List.forall_mem_cons.mp away
    rw [← landed.off here.1 here.2]
    apply ih later
    intro g member
    rw [place_congr landed.home, way_congr landed.home]
    exact behind g member

/-- Where fragments have been written one after the other, each file has the fingerprint of its
fragment, and the ways there are open. -/
theorem writeAll_settles (sound : ∀ f ∈ fragments, f.Sound)
    (places : fragments.Pairwise fun f g => place outDir fs f ≠ place outDir fs g) {records : List WriteRecord}
    (ok : writeAll outDir fs fragments = (final, .ok records)) (member : f ∈ fragments) :
    final.Holds (place outDir fs f) f.fingerprint ∧ final.Open (way outDir fs f) := by
  constructor
  · obtain ⟨front, back, rfl⟩ := List.append_of_mem member
    have behind := (List.pairwise_cons.mp (List.pairwise_append.mp places).2.1).1
    exact writeAll_holds sound ok fun g later => (behind g later).symm
  · rw [← way_congr (writeAll_keeps sound ok).home]
    exact (writeAll_reaches sound ok member).2

/-- In any order the same is stored, up to files with one fingerprint. -/
theorem writeAll_alike {other : FileStore} {others : List Fragment} (perm : fragments.Perm others)
    (sound : ∀ f ∈ fragments, f.Sound)
    (places : fragments.Pairwise fun f g => place outDir fs f ≠ place outDir fs g)
    {records otherRecords : List WriteRecord} (first : writeAll outDir fs fragments = (final, .ok records))
    (second : writeAll outDir fs others = (other, .ok otherRecords)) (s : Spot) :
    final.lookup s = other.lookup s ∨
      ∃ f ∈ fragments, final.Holds s f.fingerprint ∧ other.Holds s f.fingerprint := by
  have otherSound : ∀ f ∈ others, f.Sound := fun f member => sound f (perm.mem_iff.mpr member)
  have otherPlaces := (perm.pairwise_iff fun apart => Ne.symm apart).mp places
  by_cases there : ∃ f ∈ fragments, s = place outDir fs f
  · obtain ⟨f, member, rfl⟩ := there
    exact .inr ⟨f, member, (writeAll_settles sound places first member).1,
      (writeAll_settles otherSound otherPlaces second (perm.mem_iff.mp member)).1⟩
  · left
    by_cases onWay : ∃ f ∈ fragments, s ∈ way outDir fs f
    · obtain ⟨f, member, passes⟩ := onWay
      rw [(writeAll_settles sound places first member).2 s passes,
        (writeAll_settles otherSound otherPlaces second (perm.mem_iff.mp member)).2 s passes]
    · have away (f : Fragment) (member : f ∈ fragments) : s ≠ place outDir fs f ∧ s ∉ way outDir fs f :=
        ⟨fun one => there ⟨f, member, one⟩, fun passes => onWay ⟨f, member, passes⟩⟩
      rw [writeAll_elsewhere first away, writeAll_elsewhere second fun f member => away f (perm.mem_iff.mpr member)]

/-- Sends batches to a writer one after the other, and gathers what it returns for each. -/
def sendAll (w : Writer) (fs : FileStore) : List (List Fragment) → FileStore × List (Except WriteError (List WriteRecord))
  | [] => (fs, [])
  | batch :: rest =>
    let (w, fs, result) := w.writeBatch fs batch
    let (final, results) := w.sendAll fs rest
    (final, result :: results)

theorem sendAll_cons (w : Writer) (fs : FileStore) (batch : List Fragment) (rest : List (List Fragment)) :
    w.sendAll fs (batch :: rest) =
      (((w.writeBatch fs batch).1.sendAll (w.writeBatch fs batch).2.1 rest).1,
        (w.writeBatch fs batch).2.2 :: ((w.writeBatch fs batch).1.sendAll (w.writeBatch fs batch).2.1 rest).2) := rfl

theorem clear_append {earlier a b : List Fragment} :
    Clear earlier (a ++ b) ↔ Clear earlier a ∧ Clear (earlier ++ a) b := by
  induction a generalizing earlier with
  | nil => simp [clear_nil]
  | cons f a ih => rw [List.cons_append, clear_cons, clear_cons, ih, List.append_assoc, List.singleton_append, and_assoc]

theorem clear_iff_apart : Clear [] fragments ↔ Apart (fragments.map (·.output)) := by
  constructor
  · exact fun clear => @apart_of_clear [] fragments List.Pairwise.nil clear
  · rintro apart front f back rfl ⟨g, member, same⟩
    have before := (List.pairwise_append.mp (List.pairwise_map.mp apart)).2.2
    rw [before g member f List.mem_cons_self] at same
    cases same

theorem writeAll_append_isOk {a b : List Fragment} :
    (writeAll outDir fs (a ++ b)).2.isOk = true ↔
      (writeAll outDir fs a).2.isOk = true ∧ (writeAll outDir (writeAll outDir fs a).1 b).2.isOk = true := by
  simp only [isOk_iff]
  constructor
  · rintro ⟨records, ok⟩
    obtain ⟨middle, first, second, front, back, _⟩ := writeAll_append (Prod.ext rfl ok)
    rw [front]
    exact ⟨⟨first, rfl⟩, second, congrArg Prod.snd back⟩
  · rintro ⟨⟨first, front⟩, second, back⟩
    exact ⟨first ++ second, congrArg Prod.snd (writeAll_concat (Prod.ext rfl front) (Prod.ext rfl back))⟩

/-- All batches succeed exactly if their fragments have different outputs and can all be written. -/
theorem sendAll_isOk_iff {w : Writer} {earlier : List Fragment} (known : w.claimed = earlier.map noted)
    {batches : List (List Fragment)} :
    (∀ result ∈ (w.sendAll fs batches).2, result.isOk = true) ↔
      Clear earlier batches.flatten ∧ (writeAll w.outDir fs batches.flatten).2.isOk = true := by
  induction batches generalizing w fs earlier with
  | nil => exact iff_of_true (List.forall_mem_nil _) ⟨clear_nil earlier, rfl⟩
  | cons batch rest ih =>
    rw [sendAll_cons, List.forall_mem_cons, List.flatten_cons, clear_append, writeAll_append_isOk]
    rcases writeBatch_cases known fs batch with ⟨path, one, two, collision, refused⟩ | ⟨clear, next, written⟩
    · rw [refused]
      refine iff_of_false (fun ok => ?_) fun ok => not_clear_of_collision collision ok.1.1
      exact absurd ok.1 (by simp [Except.isOk, Except.toBool])
    · have others := @ih (writeAll w.outDir fs batch).1 _ (earlier ++ batch)
        (show (w.writeBatch fs batch).1.claimed = _ by rw [next])
      rw [written, others, next]
      constructor
      · rintro ⟨first, clearLater, later⟩
        exact ⟨⟨clear, clearLater⟩, first, later⟩
      · rintro ⟨⟨_, clearLater⟩, first, later⟩
        exact ⟨first, clearLater, later⟩

theorem sendAll_isOk_perm {batches other : List (List Fragment)} (perm : batches.Perm other) :
    (∀ result ∈ ((fresh outDir).sendAll fs batches).2, result.isOk = true) ↔
      ∀ result ∈ ((fresh outDir).sendAll fs other).2, result.isOk = true := by
  have start : (fresh outDir).claimed = ([] : List Fragment).map noted := rfl
  have members (f : Fragment) : f ∈ batches.flatten ↔ f ∈ other.flatten := perm.flatten.mem_iff
  rw [sendAll_isOk_iff start, sendAll_isOk_iff start, writeAll_isOk_iff, writeAll_isOk_iff, clear_iff_apart,
    clear_iff_apart, feasible_congr members]
  refine and_congr_left' ?_
  apply (perm.flatten.map _).pairwise_iff
  intro a b different
  rwa [Path.same_comm]

/-- The records of the batches are those of their fragments, divided in the same way. -/
theorem sendAll_of_ok {w : Writer} {earlier : List Fragment} (known : w.claimed = earlier.map noted)
    {batches : List (List Fragment)} (clear : Clear earlier batches.flatten) {records : List WriteRecord}
    (ok : writeAll w.outDir fs batches.flatten = (final, .ok records)) :
    ∃ parts : List (List WriteRecord), w.sendAll fs batches = (final, parts.map .ok) ∧ parts.flatten = records ∧
      parts.map List.length = batches.map List.length := by
  induction batches generalizing w fs earlier records with
  | nil =>
    cases ok
    exact ⟨[], rfl, rfl, rfl⟩
  | cons batch rest ih =>
    obtain ⟨here, clearLater⟩ := clear_append.mp clear
    obtain ⟨middle, first, second, front, back, rfl⟩ := writeAll_append ok
    rcases writeBatch_cases known fs batch with ⟨_, _, _, collision, _⟩ | ⟨_, next, written⟩
    · exact absurd here (not_clear_of_collision collision)
    · rw [front] at written
      have outDir : (w.writeBatch fs batch).1.outDir = w.outDir := by rw [next]
      obtain ⟨parts, sent, whole, lengths⟩ :=
        ih (show (w.writeBatch fs batch).1.claimed = _ by rw [next]) clearLater (outDir ▸ back)
      have count : first.length = batch.length := by
        simpa using congrArg List.length (writeAll_records front)
      refine ⟨first :: parts, ?_, by rw [List.flatten_cons, whole], by rw [List.map_cons, List.map_cons, count, lengths]⟩
      rw [sendAll_cons, written]
      dsimp only
      rw [sent]
      rfl

section
variable {batches other : List (List Fragment)} (plain : ∀ batch ∈ batches, ∀ f ∈ batch, f.output.isPlain = true)
include plain

theorem plain_of_mem {f : Fragment} (member : f ∈ batches.flatten) : f.output.isPlain = true := by
  obtain ⟨batch, among, inside⟩ := List.mem_flatten.mp member
  exact plain batch among f inside

theorem places_of_clear (fs : FileStore) (clear : Clear [] batches.flatten) :
    batches.flatten.Pairwise fun f g => place outDir fs f ≠ place outDir fs g := by
  refine (List.pairwise_map.mp (clear_iff_apart.mp clear)).imp_of_mem fun {f g} first second different one => ?_
  rw [same_of_spotOf_join (plain_of_mem plain first) (plain_of_mem plain second) one] at different
  cases different

theorem sendAll_landed (rooted : fs.Rooted) (passable : fs.Passable outDir)
    (ok : ∀ result ∈ ((fresh outDir).sendAll fs batches).2, result.isOk = true) :
    ((fresh outDir).sendAll fs batches).2 = batches.map (fun batch => .ok (batch.map (answer outDir fs))) ∧
      Landed outDir fs batches.flatten ((fresh outDir).sendAll fs batches).1 := by
  have start : (fresh outDir).claimed = ([] : List Fragment).map noted := rfl
  obtain ⟨clear, written⟩ := (sendAll_isOk_iff start).mp ok
  have feasible : Feasible outDir fs batches.flatten := writeAll_isOk_iff.mp written
  have independent : Independent outDir fs batches.flatten := by
    refine ⟨places_of_clear plain fs clear, fun f member file => ?_⟩
    exact open_of_file rooted passable (plain_of_mem plain member) (feasible.fits f member) file
  obtain ⟨final, whole, landed⟩ := writeAll_landed feasible independent
  obtain ⟨parts, sent, records, lengths⟩ := sendAll_of_ok start clear whole
  have divided : parts = batches.map (·.map (answer outDir fs)) := by
    apply List.eq_iff_flatten_eq.mpr
    constructor
    · rw [records, List.map_flatten]
    · rw [lengths, List.map_map]
      exact List.map_congr_left fun batch _ => (List.length_map _).symm
  rw [sent, divided, List.map_map]
  exact ⟨rfl, landed⟩

/-- In whichever order batches reach a fresh writer, all of them succeed or not, and then the same is
stored in the end, up to files with one fingerprint. If the path of the output directory gets there
when the directory exists, what is stored is the same to the byte, and each batch has the same records
in every order, those that it would have as the first one. The path does get there if the directory
was just made or if the path never goes up. -/
theorem sendAll_any_order (perm : batches.Perm other) :
    ((∀ result ∈ ((fresh outDir).sendAll fs batches).2, result.isOk = true) ↔
      ∀ result ∈ ((fresh outDir).sendAll fs other).2, result.isOk = true) ∧
    ((∀ result ∈ ((fresh outDir).sendAll fs batches).2, result.isOk = true) →
      ((∀ batch ∈ batches, ∀ f ∈ batch, f.Sound) → ∀ spot,
        ((fresh outDir).sendAll fs batches).1.lookup spot = ((fresh outDir).sendAll fs other).1.lookup spot ∨
        ∃ f ∈ batches.flatten, ((fresh outDir).sendAll fs batches).1.Holds spot f.fingerprint ∧
          ((fresh outDir).sendAll fs other).1.Holds spot f.fingerprint) ∧
      (fs.Rooted → fs.Passable outDir →
        ((fresh outDir).sendAll fs batches).2 = batches.map (fun batch => .ok (batch.map (answer outDir fs))) ∧
        ((fresh outDir).sendAll fs other).2 = other.map (fun batch => .ok (batch.map (answer outDir fs))) ∧
        ∀ spot, ((fresh outDir).sendAll fs batches).1.lookup spot =
          ((fresh outDir).sendAll fs other).1.lookup spot)) ∧
    ((∃ before : FileStore, before.makeDirectory outDir = .ok fs) ∨ fs.Rooted ∧ .up ∉ outDir.components →
      fs.Passable outDir) := by
  have start : (fresh outDir).claimed = ([] : List Fragment).map noted := rfl
  have members (f : Fragment) : f ∈ batches.flatten ↔ f ∈ other.flatten := perm.flatten.mem_iff
  have both := @sendAll_isOk_perm outDir fs _ _ perm
  refine ⟨both, fun ok => ⟨fun sound => ?_, fun rooted passable => ?_⟩, ?_⟩
  · obtain ⟨clear, written⟩ := (sendAll_isOk_iff start).mp ok
    obtain ⟨otherClear, otherWritten⟩ := (sendAll_isOk_iff start).mp (both.mp ok)
    obtain ⟨records, first⟩ := isOk_iff.mp written
    obtain ⟨otherRecords, second⟩ := isOk_iff.mp otherWritten
    obtain ⟨_, sent, _⟩ := sendAll_of_ok start clear (Prod.ext rfl first)
    obtain ⟨_, otherSent, _⟩ := sendAll_of_ok start otherClear (Prod.ext rfl second)
    have soundAll : ∀ f ∈ batches.flatten, f.Sound := by
      intro f member
      obtain ⟨batch, among, inside⟩ := List.mem_flatten.mp member
      exact sound batch among f inside
    rw [sent, otherSent]
    exact writeAll_alike perm.flatten soundAll (places_of_clear plain fs clear) (Prod.ext rfl first) (Prod.ext rfl second)
  · have plainOther : ∀ batch ∈ other, ∀ f ∈ batch, f.output.isPlain = true :=
      fun batch among => plain batch (perm.mem_iff.mpr among)
    obtain ⟨records, landed⟩ := sendAll_landed plain rooted passable ok
    obtain ⟨otherRecords, otherLanded⟩ := sendAll_landed plainOther rooted passable (both.mp ok)
    exact ⟨records, otherRecords, landed.lookup_eq otherLanded members⟩
  · rintro (⟨before, made⟩ | ⟨rooted, straight⟩)
    · exact passable_of_made made
    · exact passable_of_straight rooted straight

end

/-! Two fragments, one of which has its file already. -/

def there : Fragment := .ofText ⟨"h"⟩ ⟨"a"⟩ "" "p"

def missing : Fragment := .ofText ⟨"h"⟩ ⟨"b"⟩ "" "p"

def begun : FileStore := ⟨[], [(["o"], .directory), (["o", "a"], .file "".toUTF8)]⟩

theorem rooted_begun : begun.Rooted := rooted_of_entries (by decide +kernel)

theorem plain_begun : ∀ batch ∈ [[there], [missing]], ∀ f ∈ batch, f.output.isPlain = true := by decide +kernel

theorem sendAll_any_order_begun :
    ((fresh ⟨"/o"⟩).sendAll begun [[there], [missing]]).2 =
        [.ok [record there .unchanged], .ok [record missing .written]] ∧
      ((fresh ⟨"/o"⟩).sendAll begun [[missing], [there]]).2 =
        [.ok [record missing .written], .ok [record there .unchanged]] := by
  have ok : ∀ result ∈ ((fresh ⟨"/o"⟩).sendAll begun [[there], [missing]]).2, result.isOk = true := by decide +kernel
  obtain ⟨_, same, passable⟩ := sendAll_any_order plain_begun (.swap [missing] [there] [])
  have straight : .up ∉ (Path.mk "/o").components := by decide +kernel
  obtain ⟨records, otherRecords, _⟩ := (same ok).2 rooted_begun (passable (.inr ⟨rooted_begun, straight⟩))
  rw [records, otherRecords]
  decide +kernel

/-- Through a directory that is not there yet, a file is reached only after another one was written. -/
theorem order_shows_behind_missing :
    begun.Rooted ∧ (∀ batch ∈ [[there], [missing]], ∀ f ∈ batch, f.output.isPlain = true) ∧
      [[there], [missing]].Perm [[missing], [there]] ∧
      ((fresh ⟨"/x/../o"⟩).sendAll begun [[there], [missing]]).2 =
        [.ok [record there .written], .ok [record missing .written]] ∧
      ((fresh ⟨"/x/../o"⟩).sendAll begun [[missing], [there]]).2 =
        [.ok [record missing .written], .ok [record there .unchanged]] := by
  refine ⟨rooted_begun, plain_begun, .swap [missing] [there] [], ?_, ?_⟩
  · decide +kernel
  · decide +kernel

end MarkerGen.Writer
