import MarkerGen.Proofs.Run.Fixpoint
import MarkerGen.Proofs.Run.OnDisk

/-! Running again. A run that left its inputs alone finds every fragment as it should be when it is
repeated, so that it only saves the manifest, and a third run saves the very same one. -/
namespace MarkerGen.Pipeline

open FileStore Writer

variable {p : Pipeline} {fs after later : FileStore} {inputs : List Path} {report : RunReport}
  {results : List FileResult}

/-- Every input reads the same in a later store as after any of the writes of a run. -/
def Steady (p : Pipeline) (s : State) (inputs : List Path) (later : FileStore) : Prop :=
  ∀ front back middle records, p.fragmentsFrom s inputs = front ++ back →
    writeAll s.writer.outDir s.files front = (middle, .ok records) →
      ∀ input ∈ inputs, ∀ content, middle.read input = .ok content ↔ later.read input = .ok content

theorem Steady.tail {s next : State} {input : Path} {rest : List Path} {result : FileResult}
    (steady : p.Steady s (input :: rest) later) (processed : Processed p s input next result) :
    p.Steady next rest later := by
  intro front back middle records split written other member
  obtain ⟨outDir, first⟩ := processed.written
  rw [outDir] at written
  refine steady _ back middle _ ?_ (writeAll_concat first written) other (List.mem_cons_of_mem _ member)
  rw [processed.fragments_cons, split, List.append_assoc]

/-- What is remarked about the includes of each input in its turn would be remarked in a later store. -/
def Remarked (p : Pipeline) (s : State) (later : FileStore) : List Path → Prop
  | [] => True
  | input :: rest => p.SameRemarks s.files later input ∧ p.Remarked (p.processFile s input).1 later rest

theorem Remarked.congr {s : State} {other : FileStore} (remarked : p.Remarked s later inputs)
    (alike : ∀ input ∈ inputs, (p.frontend.parseFile later input).toOption = (p.frontend.parseFile other input).toOption) :
    p.Remarked s other inputs := by
  induction inputs generalizing s with
  | nil => trivial
  | cons input rest ih =>
    obtain ⟨own, others⟩ := List.forall_mem_cons.mp alike
    refine ⟨fun u v here there => remarked.1 u v here ?_, ih remarked.2 others⟩
    cases parsed : p.frontend.parseFile later input with
    | ok w =>
      rw [parsed, there] at own
      cases own
      rfl
    | error failure =>
      rw [parsed, there] at own
      cases own

theorem Processed.again {s next : State} {input : Path} {result : FileResult}
    (remarks : p.registry.IgnoresDiagnostics ∨ p.SameRemarks s.files later input)
    (processed : Processed p s input next result)
    (reads : ∀ content, s.files.read input = .ok content ↔ later.read input = .ok content)
    (there : ∀ f ∈ (p.prepare s.files s.clock input).2.fragments,
      later.fingerprint (s.writer.outDir.join f.output) = .ok (some f.fingerprint)) :
    ∃ second, Processed p { s with files := later } input { next with files := later } second ∧
      second.outcome? = result.outcome?.map (·.map settledRecord) ∧
      (p.prepare later s.clock input).2.fragments = (p.prepare s.files s.clock input).2.fragments := by
  obtain ⟨clocks, alike⟩ := prepare_alike remarks reads s.clock
  cases prepared : p.prepare later s.clock input with
  | mk clock outcome =>
    rw [prepared] at clocks alike
    cases processed with
    | parseFailed first =>
      rw [first] at clocks alike
      cases clocks
      rcases alike with same | ⟨_, error, _, failed⟩
      · cases same
        exact ⟨_, .parseFailed prepared, rfl, by rw [first]⟩
      · cases failed
        exact ⟨_, .parseFailed prepared, rfl, by rw [first]; rfl⟩
    | timedOut first =>
      rw [first] at clocks alike
      cases clocks
      rcases alike with same | ⟨_, _, other, _⟩
      · cases same
        exact ⟨_, .timedOut prepared, rfl, by rw [first]⟩
      · cases other
    | generated first free written =>
      rw [first] at clocks alike there
      cases clocks
      rcases alike with same | ⟨_, _, other, _⟩
      · cases same
        exact ⟨_, .generated prepared free (writeAll_settled there), congrArg some (writeAll_records written).symm, by rw [first]⟩
      · cases other

theorem processFiles_again {s : State} {files : FileStore}
    (remarks : p.registry.IgnoresDiagnostics ∨ p.Remarked s later inputs)
    (ok : p.processFiles s inputs = (files, .ok results)) (steady : p.Steady s inputs later)
    (there : ∀ f ∈ p.fragmentsFrom s inputs,
      later.fingerprint (s.writer.outDir.join f.output) = .ok (some f.fingerprint)) :
    ∃ again, p.processFiles { s with files := later } inputs = (later, .ok again) ∧
      again.map FileResult.outcome? = (results.map FileResult.outcome?).map (Option.map (·.map settledRecord)) ∧
      p.fragmentsFrom { s with files := later } inputs = p.fragmentsFrom s inputs := by
  induction inputs generalizing s results with
  | nil =>
    cases ok
    exact ⟨[], rfl, rfl, rfl⟩
  | cons input rest ih =>
    obtain ⟨next, result, others, processed, following, rfl⟩ := processFiles_cons_iff.mp ok
    have split := processed.fragments_cons rest
    have reads := steady [] _ s.files [] rfl rfl input List.mem_cons_self
    rw [split] at there
    obtain ⟨second, repeated, outcome, made⟩ :=
      processed.again (remarks.imp_right And.left) reads fun f member => there f (List.mem_append_left _ member)
    have remarksRest : p.registry.IgnoresDiagnostics ∨ p.Remarked next later rest := by
      have step : (p.processFile s input).1 = next := congrArg Prod.fst processed.eq
      rw [← step]
      exact remarks.imp_right And.right
    obtain ⟨again, settledRest, outcomes, same⟩ :=
      ih remarksRest following (steady.tail processed) fun f member => by
        rw [processed.written.1]
        exact there f (List.mem_append_right _ member)
    refine ⟨second :: again, processFiles_cons_iff.mpr ⟨_, _, _, repeated, settledRest, rfl⟩, ?_, ?_⟩
    · rw [List.map_cons, List.map_cons, List.map_cons, outcome, outcomes]
    · rw [repeated.fragments_cons, split, same]
      exact congrArg (· ++ _) made

/-- Stores that differ at most in what one file holds. -/
structure Beside (spot : Spot) (fs other : FileStore) : Prop where
  home : other.home = fs.home
  elsewhere : ∀ place, place ≠ spot → other.lookup place = fs.lookup place
  file : fs.HasFile spot
  otherFile : other.HasFile spot

theorem Beside.symm {spot : Spot} {fs other : FileStore} (beside : Beside spot fs other) : Beside spot other fs :=
  ⟨beside.home.symm, fun place apart => (beside.elsewhere place apart).symm, beside.otherFile, beside.file⟩

theorem Beside.keeps {spot : Spot} {fs other : FileStore} (beside : Beside spot fs other) : Keeps fs other := by
  refine ⟨beside.home, fun place found => ?_⟩
  rw [beside.elsewhere, found]
  rintro rfl
  obtain ⟨content, file⟩ := beside.file
  rw [file] at found
  cases found

theorem Beside.read_iff {spot : Spot} {fs other : FileStore} (beside : Beside spot fs other) {path : Path}
    (same : other.lookup (fs.spotOf path) = fs.lookup (fs.spotOf path)) (content : ByteArray) :
    fs.read path = .ok content ↔ other.read path = .ok content := by
  refine ⟨fun read => beside.keeps.read read same, fun read => beside.symm.keeps.read read ?_⟩
  rw [spotOf_congr beside.home, same]

theorem Beside.free {spot : Spot} {fs other : FileStore} (beside : Beside spot fs other) :
    other.lookup spot ≠ some .directory := by
  obtain ⟨content, file⟩ := beside.otherFile
  simp [file]

theorem Beside.present {spot : Spot} {fs other : FileStore} (beside : Beside spot fs other) :
    fs.present = other.present := by
  have onward {fs other : FileStore} (beside : Beside spot fs other) (path : Path) (there : fs.present path = true) :
      other.present path = true := by
    unfold FileStore.present at there ⊢
    split at there
    next stored found =>
      obtain ⟨nonempty, way, lookup⟩ := stat_ok_iff.mp found
      have open' : other.Open (other.wayTo path) := by
        rw [wayTo_congr beside.home]
        exact beside.keeps.way way
      by_cases here : fs.spotOf path = spot
      · obtain ⟨content, file⟩ := beside.otherFile
        rw [stat_ok_iff.mpr ⟨nonempty, open', by rw [spotOf_congr beside.home, here, file]⟩]
      · rw [stat_ok_iff.mpr ⟨nonempty, open', by rw [spotOf_congr beside.home, beside.elsewhere _ here, lookup]⟩]
    next => cases there
  funext path
  exact Bool.eq_iff_iff.mpr ⟨onward beside path, onward beside.symm path⟩

/-- A run changes no input: what was there is still there, and what can be read now could be read
before. -/
structure Spares (fs : FileStore) (inputs : List Path) (after : FileStore) : Prop where
  stored : ∀ input ∈ inputs, after.lookup (fs.spotOf input) = fs.lookup (fs.spotOf input)
  read : ∀ input ∈ inputs, ∀ content, after.read input = .ok content → fs.read input = .ok content

section
variable (ran : p.Ran fs inputs results after report) (plain : p.Plain fs inputs)
include ran plain

/-- What a fragment has written is spared by what follows: no later fragment leads there, no stale
output, and not the manifest. -/
theorem Ran.spares_written {front back : List Fragment} {middle : FileStore} {rest : List WriteRecord}
    (split : p.fragments fs inputs = front ++ back) (home : middle.home = fs.home)
    (written : writeAll p.options.outDir middle back = (p.batched fs inputs, .ok rest)) {f : Fragment} (member : f ∈ front) :
    Spared middle after (p.place fs f.output) := by
  have inside : f ∈ p.fragments fs inputs := split ▸ List.mem_append_left _ member
  have sound (g : Fragment) (later : g ∈ back) : g.Sound :=
    fragments_sound p fs inputs g (split ▸ List.mem_append_right _ later)
  have places := ran.places plain
  rw [split] at places
  have alone := (List.pairwise_append.mp places).2.2 f member
  have spared : Spared middle (p.batched fs inputs) (p.place fs f.output) := by
    apply writeAll_spared sound written
    intro g later
    rw [spotOf_congr home]
    exact (alone g later).symm
  have tidy : Spared (p.batched fs inputs) (p.tidied (p.batched fs inputs) report.staleOutputs) (p.place fs f.output) :=
    .inl ((tidied_cleared p _ _).spared _ (ran.not_removed plain inside))
  exact spared.trans (tidy.trans (ran.spared (plain.fragments f inside).2))

/-- What is the same before and after a run is so after any of its writes. -/
theorem Ran.between {front back : List Fragment} {middle : FileStore} {records : List WriteRecord}
    (split : p.fragments fs inputs = front ++ back)
    (written : writeAll p.options.outDir (p.opened fs) front = (middle, .ok records)) {spot : Spot}
    (same : after.lookup spot = fs.lookup spot) :
    Keeps fs middle ∧ Keeps middle after ∧ middle.lookup spot = fs.lookup spot := by
  have whole := ran.written
  have sound := fragments_sound p fs inputs
  rw [split] at whole sound
  obtain ⟨reached, _, rest, first, following, _⟩ := writeAll_append whole
  rw [written] at first
  cases first
  obtain ⟨soundFront, soundBack⟩ := List.forall_mem_append.mp sound
  have since := ran.grows.keeps.trans (writeAll_keeps soundFront written)
  have onward := (writeAll_keeps soundBack following).trans ran.keeps
  refine ⟨since, onward, ?_⟩
  by_cases directory : middle.lookup spot = some .directory
  · rw [← same, directory, onward.directories spot directory]
  by_cases touched : ∃ f ∈ front, p.place fs f.output = spot
  · obtain ⟨f, member, rfl⟩ := touched
    rcases ran.spares_written plain split since.home following member with equal | ⟨_, made⟩
    · rw [← equal, same]
    · rw [same] at made
      exact absurd (since.directories _ made) directory
  · -- No earlier fragment leads there.
    have spared : Spared (p.opened fs) middle spot := by
      apply writeAll_spared soundFront written
      intro f member led
      rw [spotOf_congr ran.grows.home] at led
      exact touched ⟨f, member, led⟩
    rcases (Spared.trans (ran.grows.lookup spot) spared) with equal | ⟨_, made⟩
    · exact equal
    · exact absurd made directory

theorem Ran.steady (spares : Spares fs inputs after) (beside : Beside (p.manifestSpot fs) after later)
    (same : ∀ input ∈ inputs, later.lookup (fs.spotOf input) = after.lookup (fs.spotOf input)) :
    p.Steady (p.start fs) inputs later := by
  intro front back middle records split written input member content
  have stored := spares.stored input member
  obtain ⟨since, onward, here⟩ := ran.between plain split written stored
  have home := onward.home.trans since.home
  have still : later.lookup (after.spotOf input) = after.lookup (after.spotOf input) := by
    rw [spotOf_congr home]
    exact same input member
  have settled := beside.read_iff still content
  constructor
  · intro read
    exact settled.mp (onward.read read (by rw [spotOf_congr since.home, here, stored]))
  · intro read
    exact since.read (spares.read input member content (settled.mpr read)) here

theorem Ran.there (beside : Beside (p.manifestSpot fs) after later) {f : Fragment} (member : f ∈ p.fragments fs inputs) :
    later.fingerprint (p.options.outDir.join f.output) = .ok (some f.fingerprint) := by
  obtain ⟨reaches, content, found, digest⟩ := fingerprint_eq_iff.mp (ran.onDisk plain member)
  have home := ran.keeps.home.trans ran.batched_keeps.home
  have apart := (plain.fragments f member).2
  refine fingerprint_eq_iff.mpr ⟨beside.keeps.reaches reaches, content, ?_, digest⟩
  rw [spotOf_congr beside.home, ← found, spotOf_congr home]
  exact beside.elsewhere _ apart

/-- A run from a store that is settled but for the manifest it finds. -/
theorem Ran.again (spares : Spares fs inputs after)
    (remarks : p.registry.IgnoresDiagnostics ∨ p.Remarked (p.start fs) later inputs)
    (beside : Beside (p.manifestSpot fs) after later)
    (same : ∀ input ∈ inputs, later.lookup (fs.spotOf input) = after.lookup (fs.spotOf input))
    {m : Manifest} (version : m.version = Manifest.formatVersion)
    (saved : later.read p.options.manifestPath = .ok m.text.toUTF8)
    (fresh : p.toRemove (staleOf m ((p.doneOf inputs results).map settled)) = []) :
    ∃ repeated next, p.Ran later inputs repeated next (p.reportOf m inputs repeated) ∧
      p.doneOf inputs repeated = (p.doneOf inputs results).map settled ∧
      p.fragments later inputs = p.fragments fs inputs ∧
      Beside (p.manifestSpot fs) later next ∧
      next.read p.options.manifestPath =
        .ok (savedOf p.options.removeStale m ((p.doneOf inputs results).map settled)).text.toUTF8 := by
  -- Up to the manifest the run finds everything done: the output directory is there, the inputs
  -- give the same fragments, and nothing is to be removed.
  have openedKeeps : Keeps (p.opened fs) later :=
    (writeAll_keeps (fragments_sound p fs inputs) ran.written).trans (ran.keeps.trans beside.keeps)
  have made : later.makeDirectory p.options.outDir = .ok later := makeDirectory_again ran.opened openedKeeps
  have openedAs : p.opened later = later := by rw [Pipeline.opened, made]; rfl
  have started : p.start later = { p.start fs with files := later } := by rw [start, openedAs]; rfl
  obtain ⟨repeated, processed, outcomes, fragments⟩ :=
    processFiles_again remarks ran.processed (ran.steady plain spares beside same)
      fun f member => ran.there plain beside member
  rw [← started] at processed fragments
  have batchedAs : p.batched later inputs = later := congrArg Prod.fst processed
  have found : p.previous later = m := by
    rw [previous, openedAs]
    exact Manifest.load_of_read version saved
  have done : p.doneOf inputs repeated = (p.doneOf inputs results).map settled := by
    rw [doneOf, outcomes, List.zip_map_right]
    rfl
  have untouched : p.tidied later (staleOf m (p.doneOf inputs repeated)) = later := by
    rw [done]
    exact p.tidied_of_none later fresh
  have manifest : (p.tidied (p.batched fs inputs) report.staleOutputs).spotOf p.options.manifestPath = p.manifestSpot fs :=
    spotOf_congr ran.tidied_home _
  obtain ⟨next, written, nextHome, lookup⟩ := ran.wrote.again later
    (savedOf p.options.removeStale m (p.doneOf inputs repeated)).text.toUTF8 beside.keeps (manifest ▸ beside.free)
  rw [manifest] at lookup
  refine ⟨repeated, next, ⟨openedAs.symm ▸ made, ran.staffed, batchedAs.symm ▸ processed, ?_, by rw [found]⟩, done, fragments,
    ⟨nextHome, fun place apart => (lookup place).trans (if_neg apart), beside.otherFile, _,
      (lookup _).trans (if_pos rfl)⟩, ?_⟩
  · rw [found, batchedAs, untouched]
    exact written
  · rw [← done]
    exact (writeFile_wrote written).read

end

theorem Ran.records (ran : p.Ran fs inputs results after report) :
    ((p.doneOf inputs results).flatMap (·.2.getD [])).length = (p.fragments fs inputs).length := by
  have written := congrArg List.length (writeAll_records ran.written)
  rw [List.length_map, List.length_map] at written
  rw [← written, flatMap_doneOf (processFiles_length ran.processed)]

def Below (dir path : Path) : Prop := ∃ rest, rest ≠ [] ∧ path.components = dir.components ++ rest

theorem components_sourcePath {dir input : Path} (inDir : p.options.inDir = some dir) (below : Below dir input) :
    input.components = dir.components ++ (p.options.layout.sourcePath input).components := by
  obtain ⟨rest, nonempty, whole⟩ := below
  have above : dir.components.isPrefixOf input.components = true :=
    List.isPrefixOf_iff_prefix.mpr ⟨rest, whole.symm⟩
  obtain ⟨path, found⟩ : ∃ path, dir.relativeTo? input = some path := by
    rw [Path.relativeTo?, if_pos above]
    dsimp only
    split <;> exact ⟨_, rfl⟩
  have parts := Path.components_relativeTo found
  have full : path.text.isEmpty = false := by
    rw [← Bool.not_eq_true, String.isEmpty_iff]
    intro empty
    apply nonempty
    rw [whole, List.append_right_inj] at parts
    rw [parts, show path = ⟨""⟩ from congrArg Path.mk empty]
    decide
  have source : p.options.layout.sourcePath input = path := by
    rw [Layout.sourcePath, show p.options.layout.inDir = some dir from inDir, Option.bind_some, found]
    dsimp only
    rw [full]
    rfl
  rw [source]
  exact parts

theorem sources_apart {dir : Path} (inDir : p.options.inDir = some dir) (below : ∀ input ∈ inputs, Below dir input)
    (distinct : Apart inputs) : Apart (inputs.map p.options.layout.sourcePath) := by
  refine List.pairwise_map.mpr (distinct.imp_of_mem fun {a b} first second different => ?_)
  rw [← Bool.not_eq_true, Path.same_iff] at different ⊢
  intro one
  apply different
  rw [components_sourcePath inDir (below a first), one, ← components_sourcePath inDir (below b second)]

def includingText : String := markedText ++ "\n#include \"../o/a\"\n"

def including : FileStore := ⟨[], [(["i"], .directory), (["i", "a"], .file includingText.toUTF8)]⟩

/-- The file tells whether anything was remarked about its source. -/
def curious : Pipeline :=
  { asking "a" with
    registry := alone fun r => .ofOutcome (.generated [⟨if r.unit.diagnostics.isEmpty then "" else "remarks", some "a", none⟩])
    grammar := fun _ => .mk ⟨0, "translation_unit", "", 0, 34, true, false, false, false⟩ (markedTree.children ++
      [.mk ⟨5, "preproc_include", "", 16, 34, true, false, false, false⟩
        [.mk ⟨6, "string_literal", "path", 25, 33, true, false, false, false⟩ []]]) }

/-- A strategy that looks at what was remarked sees an include that the run before made. -/
theorem run_again_remarks_less :
    Below ⟨"/i"⟩ ⟨"/i/a"⟩ ∧ curious.Plain including [⟨"/i/a"⟩] ∧
      ∃ after report, curious.run including [⟨"/i/a"⟩] = (after, .ok report) ∧
        after.lookup (including.spotOf ⟨"/i/a"⟩) = including.lookup (including.spotOf ⟨"/i/a"⟩) ∧
        ∃ next second, curious.run after [⟨"/i/a"⟩] = (next, .ok second) ∧ second.fragmentsWritten = 1 := by
  have evaluated : (curious.run including [⟨"/i/a"⟩]).2.toOption.isSome = true ∧
      (curious.run including [⟨"/i/a"⟩]).1.lookup (including.spotOf ⟨"/i/a"⟩) =
        including.lookup (including.spotOf ⟨"/i/a"⟩) ∧
      ((curious.run including [⟨"/i/a"⟩]).1.makeDirectory curious.options.outDir).toOption.isSome = true ∧
      (curious.resume (curious.leaves including [⟨"/i/a"⟩]) (curious.opened (curious.run including [⟨"/i/a"⟩]).1)
        [⟨"/i/a"⟩]).2.toOption = some ⟨1, 1, 0, [], 1, 0, []⟩ ∧
      (curious.fragments including [⟨"/i/a"⟩]).all (fun f => f.output.isPlain &&
        curious.place including f.output != curious.manifestSpot including) = true ∧
      (curious.previous including).entries = [] := by
    decide +kernel
  obtain ⟨some, stored, made, second, outputs, empty⟩ := evaluated
  obtain ⟨report, some⟩ := Option.isSome_iff_exists.mp some
  have ok := run_of_toOption some
  rw [← run_after ok rfl made] at second
  exact ⟨⟨[.name "a"], by decide, by decide +kernel⟩, ⟨by simpa using outputs, by simp [empty]⟩, _, _, ok, stored,
    _, _, run_of_toOption second, rfl⟩

end MarkerGen.Pipeline
