import MarkerGen.Proofs.Run.Idempotence
import MarkerGen.Proofs.Run.OwnSources

/-! The manifest over many runs. Entries come to it from records, from the manifest before it and from
stale outputs that are kept, and none of these ways brings in what another one has. -/
namespace MarkerGen.Pipeline

open FileStore Writer

/-- No two entries tell of one output of one input. -/
def Unrepeated (entries : List ManifestEntry) : Prop :=
  entries.Pairwise fun a b => ¬ (a.input.same b.input = true ∧ a.output.same b.output = true)

section
variable {previous : Manifest} {done : Done} {removeStale : Bool} {d : Path × Option (List WriteRecord)}

theorem unrepeated_rows (old : Unrepeated previous.entries) (distinct : Apart ((d.2.getD []).map (·.output))) :
    Unrepeated (rows previous d) := by
  unfold rows
  cases outcome : d.2 with
  | none => exact old.sublist List.filter_sublist
  | some records =>
    rw [outcome] at distinct
    refine List.pairwise_map.mpr ((List.pairwise_map.mp distinct).imp ?_)
    rintro a b different ⟨_, one⟩
    exact absurd (different.symm.trans one) nofun

theorem unrepeated_generated (old : Unrepeated previous.entries) (apart : Apart (sources done))
    (distinct : Apart ((done.flatMap (·.2.getD [])).map (·.output))) :
    Unrepeated (done.flatMap (rows previous)) := by
  have records := (List.pairwise_flatMap.mp (List.pairwise_map.mp distinct)).1
  refine List.pairwise_flatMap.mpr ⟨fun d member => ?_, (List.pairwise_map.mp apart).imp ?_⟩
  · apply unrepeated_rows old
    exact List.pairwise_map.mpr (records d member)
  · rintro c d different a first b second ⟨one, _⟩
    have source := Path.same_trans (Path.same_trans (input_of_rows first) one)
      ((Path.same_comm _ _).trans (input_of_rows second))
    rw [different] at source
    cases source

theorem unrepeated_saved (old : Unrepeated previous.entries) (apart : Apart (sources done))
    (distinct : Apart ((done.flatMap (·.2.getD [])).map (·.output))) :
    Unrepeated (savedOf removeStale previous done).entries := by
  rw [saved_entries, current_entries]
  refine List.pairwise_append.mpr ⟨List.pairwise_append.mpr ⟨?_, ?_, ?_⟩, ?_, ?_⟩
  · exact unrepeated_generated old apart distinct
  · exact old.sublist List.filter_sublist
  · -- Entries of the sources have other inputs than those of absent ones.
    rintro a row b absent ⟨one, _⟩
    obtain ⟨source, member, own⟩ := List.any_eq_true.mp (source_of_rows row)
    have present : (sources done).any (·.same b.input) = true :=
      List.any_eq_true.mpr ⟨source, member, Path.same_trans own one⟩
    have missing := (List.mem_filter.mp absent).2
    rw [present] at missing
    cases missing
  · apply kept_apart.imp
    rintro a b different ⟨_, one⟩
    rw [different] at one
    cases one
  · -- A stale output that is kept is in no entry of the run.
    rintro a row b kept ⟨_, one⟩
    rw [← current_entries] at row
    have listed : (currentOf previous done).lists b.output = true := Manifest.lists_eq_true.mpr ⟨a, row, one⟩
    rw [(kept_spec kept).2] at listed
    cases listed

end

variable {p : Pipeline} {fs after : FileStore} {inputs : List Path} {report : RunReport} {results : List FileResult}

/-- Inputs that are different paths, all of them below the input directory. -/
structure Ordinary (p : Pipeline) (inputs : List Path) : Prop where
  below : ∃ dir, p.options.inDir = some dir ∧ ∀ input ∈ inputs, Below dir input
  distinct : Apart inputs

theorem Ran.unrepeated (ran : p.Ran fs inputs results after report) (ordinary : p.Ordinary inputs)
    (old : Unrepeated (p.previous fs).entries) :
    Unrepeated (savedOf p.options.removeStale (p.previous fs) (p.doneOf inputs results)).entries := by
  have length := processFiles_length ran.processed
  obtain ⟨dir, inDir, below⟩ := ordinary.below
  apply unrepeated_saved old
  · rw [sources_doneOf length]
    exact sources_apart inDir below ordinary.distinct
  · have records := congrArg (List.map (·.output)) (writeAll_records ran.written)
    rw [List.map_map, List.map_map] at records
    rw [flatMap_doneOf length]
    exact (congrArg Apart records).mpr ran.apart

theorem previous_of_none (opened : fs.makeDirectory p.options.outDir = .ok (p.opened fs))
    (none : ¬ fs.HasFile (p.manifestSpot fs)) : p.previous fs = .empty := by
  have grows := makeDirectory_grows opened
  unfold previous Manifest.load
  cases read : (p.opened fs).read p.options.manifestPath with
  | error error =>
    rw [readText, read]
    rfl
  | ok content =>
    obtain ⟨_, _, found⟩ := read_ok_iff.mp read
    rw [spotOf_congr grows.home] at found
    rcases grows.lookup (fs.spotOf p.options.manifestPath) with same | ⟨_, made⟩
    · exact absurd ⟨content, same.symm.trans found⟩ none
    · rw [found] at made
      cases made

/-- Stores after runs that came to their end, one after the other, with the manifest at one place
where there was none before the first of them. Pipelines and inputs may be different each time, and
between two runs all but the manifest may change. -/
inductive History (manifest : Path) : FileStore → Prop
  | first {p : Pipeline} {fs after : FileStore} {inputs : List Path} {report : RunReport}
      (place : p.options.manifestPath = manifest) (ordinary : p.Ordinary inputs)
      (new : ¬ fs.HasFile (p.manifestSpot fs)) (ok : p.run fs inputs = (after, .ok report)) : History manifest after
  | next {p : Pipeline} {earlier fs after : FileStore} {inputs : List Path} {report : RunReport}
      (history : History manifest earlier) (left : fs.read manifest = earlier.read manifest)
      (place : p.options.manifestPath = manifest) (ordinary : p.Ordinary inputs)
      (ok : p.run fs inputs = (after, .ok report)) : History manifest after

theorem run_unrepeated (ordinary : p.Ordinary inputs) (ok : p.run fs inputs = (after, .ok report))
    (old : fs.makeDirectory p.options.outDir = .ok (p.opened fs) → Unrepeated (p.previous fs).entries) :
    ∃ m : Manifest, m.version = Manifest.formatVersion ∧ after.read p.options.manifestPath = .ok m.text.toUTF8 ∧
      Manifest.load after p.options.manifestPath = m ∧ Unrepeated m.entries := by
  obtain ⟨results, ran⟩ := run_ok_iff.mp ok
  exact ⟨_, rfl, ran.wrote.read, ran.load, ran.unrepeated ordinary (old ran.opened)⟩

/-- However many runs there were, no output of an input is twice in the manifest. -/
theorem history_unrepeated {manifest : Path} (history : History manifest fs) :
    ∃ m : Manifest, m.version = Manifest.formatVersion ∧ fs.read manifest = .ok m.text.toUTF8 ∧
      Manifest.load fs manifest = m ∧ Unrepeated m.entries := by
  induction history with
  | first place ordinary new ok =>
    subst place
    apply run_unrepeated ordinary ok
    intro opened
    rw [previous_of_none opened new]
    exact .nil
  | next history left place ordinary ok ih =>
    subst place
    obtain ⟨m, version, saved, _, unrepeated⟩ := ih
    apply run_unrepeated ordinary ok
    intro opened
    rw [previous_of_read opened version (left.trans saved)]
    exact unrepeated

theorem history_unrepeated_renamed :
    ∃ (fs : FileStore) (m : Manifest), History ⟨"/o/m"⟩ fs ∧ fs.read ⟨"/o/m"⟩ = .ok m.text.toUTF8 ∧
      m.lists ⟨"a"⟩ = true ∧ Unrepeated m.entries := by
  have below : Below ⟨"/i"⟩ ⟨"/i/a"⟩ := ⟨[.name "a"], by decide, by decide +kernel⟩
  have ordinary (name : String) : (asking name).Ordinary [⟨"/i/a"⟩] :=
    ⟨⟨⟨"/i"⟩, rfl, by simpa using below⟩, List.pairwise_singleton _ _⟩
  have place (name : String) : (asking name).options.manifestPath = ⟨"/o/m"⟩ :=
    (by decide +kernel : (asking "").options.manifestPath = ⟨"/o/m"⟩)
  have evaluated : (neighbours.lookup ((asking "b").manifestSpot neighbours)).isNone = true ∧
      ((asking "a").fragments served [⟨"/i/a"⟩]).map (·.output) = [⟨"a"⟩] ∧
      (resumed "a" ⟨"/i/a"⟩).2.toOption = some ⟨1, 1, 0, [], 1, 0, [⟨"b"⟩]⟩ := by
    decide +kernel
  obtain ⟨none, outputs, report⟩ := evaluated
  rw [← run_served] at report
  have new : ¬ neighbours.HasFile ((asking "b").manifestSpot neighbours) := by
    rintro ⟨content, found⟩
    rw [found] at none
    cases none
  -- The first run leaves `served`, where the second one finds its manifest.
  have ok := run_of_toOption report
  have history := History.next (.first (place "b") (ordinary "b") new run_neighbours.1) rfl (place "a") (ordinary "a") ok
  obtain ⟨m, version, saved, loaded, unrepeated⟩ := history_unrepeated history
  refine ⟨_, m, history, saved, ?_, unrepeated⟩
  obtain ⟨results, second⟩ := run_ok_iff.mp ok
  obtain ⟨f, only, output⟩ := List.map_eq_singleton_iff.mp outputs
  obtain ⟨status, listed⟩ := second.listed (only ▸ List.mem_singleton_self f)
  rw [← loaded, ← place "a", second.load, ← output]
  exact Manifest.lists_eq_true.mpr ⟨_, List.mem_append_left _ listed, Path.same_iff.mpr rfl⟩

end MarkerGen.Pipeline
