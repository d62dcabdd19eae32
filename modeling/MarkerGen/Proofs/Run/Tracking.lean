import MarkerGen.Proofs.Run.Fixpoint
import MarkerGen.Proofs.Run.OnDisk

/-! No run loses track of an output. Whatever became of its source, an earlier output is carried over
into the manifest or it is stale, and no file goes away but that of a stale output. -/
namespace MarkerGen.Pipeline

open FileStore Writer

section
variable {previous : Manifest} {done : Done} {removeStale : Bool} {output : Path}

theorem lists_saved :
    (savedOf removeStale previous done).lists output = true ↔
      (currentOf previous done).lists output = true ∨
        ∃ e ∈ keptOf removeStale previous done, e.output.same output = true := by
  rw [Manifest.lists, saved_entries, List.any_append, Bool.or_eq_true, Manifest.lists]
  simp only [List.any_eq_true]

theorem kept_of_stale (off : removeStale = false) (stale : (staleOf previous done).any (·.same output) = true) :
    ∃ e ∈ keptOf removeStale previous done, e.output.same output = true := by
  obtain ⟨reported, inside, one⟩ := List.any_eq_true.mp stale
  obtain ⟨⟨e, member, rfl, _⟩, _⟩ := Manifest.mem_staleOutputs inside
  have listed : (previous.entries.find? (·.output.same e.output)).isSome = true :=
    List.find?_isSome.mpr ⟨e, member, Path.same_iff.mpr rfl⟩
  obtain ⟨first, found⟩ := Option.isSome_iff_exists.mp listed
  have same : first.output.same e.output = true := by simpa using List.find?_some found
  refine ⟨first, ?_, Path.same_trans same one⟩
  rw [keptOf, if_neg (by simp [off])]
  exact List.mem_filterMap.mpr ⟨e.output, inside, found⟩

theorem current_origin {e : ManifestEntry} (row : e ∈ (currentOf previous done).entries) :
    (∃ r ∈ done.flatMap (·.2.getD []), r.output = e.output) ∨ e ∈ previous.entries := by
  rw [current_entries, List.mem_append] at row
  rcases row with generated | absent
  · obtain ⟨d, member, row⟩ := List.mem_flatMap.mp generated
    unfold rows at row
    split at row
    next records outcome =>
      obtain ⟨r, inside, rfl⟩ := List.mem_map.mp row
      exact .inl ⟨r, List.mem_flatMap.mpr ⟨d, member, by rw [outcome]; exact inside⟩, rfl⟩
    next => exact .inr (List.mem_filter.mp row).1
  · exact .inr (List.mem_filter.mp absent).1

theorem listed_of_record {r : WriteRecord} (recorded : r ∈ done.flatMap (·.2.getD [])) :
    (currentOf previous done).lists r.output = true := by
  obtain ⟨d, member, inside⟩ := List.mem_flatMap.mp recorded
  cases outcome : d.2 with
  | none =>
    rw [outcome] at inside
    cases inside
  | some records =>
    rw [outcome] at inside
    have row : entryOf d.1 r ∈ rows previous d := by
      rw [rows, outcome]
      exact List.mem_map_of_mem inside
    have entry : entryOf d.1 r ∈ (currentOf previous done).entries :=
      List.mem_append_left _ (List.mem_flatMap.mpr ⟨d, member, row⟩)
    exact Manifest.lists_eq_true.mpr ⟨_, entry, Path.same_iff.mpr rfl⟩

/-- Which outputs the saved manifest has: those of the records and the earlier ones, less the stale
ones that were removed. -/
theorem lists_saved_iff :
    (savedOf removeStale previous done).lists output = true ↔
      (∃ r ∈ done.flatMap (·.2.getD []), r.output.same output = true) ∨
        previous.lists output = true ∧ ¬ (removeStale = true ∧ (staleOf previous done).any (·.same output) = true) := by
  rw [lists_saved]
  constructor
  · rintro (listed | ⟨e, kept, one⟩)
    · obtain ⟨e, row, one⟩ := Manifest.lists_eq_true.mp listed
      rcases current_origin row with ⟨r, recorded, same⟩ | earlier
      · exact .inl ⟨r, recorded, same ▸ one⟩
      · refine .inr ⟨Manifest.lists_eq_true.mpr ⟨e, earlier, one⟩, fun ⟨_, stale⟩ => ?_⟩
        have unlisted := (Manifest.stale_iff.mp stale).1
        rw [listed] at unlisted
        cases unlisted
    · obtain ⟨off, earlier, _⟩ := mem_keptOf kept
      exact .inr ⟨Manifest.lists_eq_true.mpr ⟨e, earlier, one⟩, fun ⟨on, _⟩ => by simp [off] at on⟩
  · rintro (⟨r, recorded, one⟩ | ⟨earlier, notRemoved⟩)
    · exact .inl ((Manifest.lists_congr one _).symm.trans (listed_of_record recorded))
    · -- Either the run has the output in an entry of its own, or the output is stale.
      cases listed : (currentOf previous done).lists output with
      | true => exact .inl rfl
      | false =>
        obtain ⟨e, member, one⟩ := Manifest.lists_eq_true.mp earlier
        have again := regenerated_of_unlisted member ((Manifest.lists_congr one _).trans listed)
        have stale : (staleOf previous done).any (·.same output) = true :=
          Manifest.stale_iff.mpr ⟨listed, e, member, one, again⟩
        have off : removeStale = false := by
          rw [← Bool.not_eq_true]
          exact fun on => notRemoved ⟨on, stale⟩
        exact .inr (kept_of_stale off stale)

end

variable {p : Pipeline} {fs after : FileStore} {inputs : List Path} {report : RunReport} {results : List FileResult}

section
variable (ran : p.Ran fs inputs results after report)
include ran

theorem Ran.recorded_iff {output : Path} :
    (∃ r ∈ (p.doneOf inputs results).flatMap (·.2.getD []), r.output.same output = true) ↔
      ∃ f ∈ p.fragments fs inputs, f.output.same output = true := by
  have outputs : (results.flatMap FileResult.records).map (·.output) = (p.fragments fs inputs).map (·.output) := by
    have records := congrArg (List.map (·.output)) (writeAll_records ran.written)
    rwa [List.map_map, List.map_map] at records
  rw [flatMap_doneOf (processFiles_length ran.processed)]
  have both := congrArg (List.any · (·.same output)) outputs
  simp only [List.any_map] at both
  rw [← List.any_eq_true, ← List.any_eq_true]
  exact Bool.eq_iff_iff.mp both

theorem Ran.batched_file {spot : Spot}
    (file : fs.HasFile spot ∨ ∃ f ∈ p.fragments fs inputs, p.place fs f.output = spot) :
    (p.batched fs inputs).HasFile spot := by
  by_cases led : ∃ f ∈ p.fragments fs inputs, p.place fs f.output = spot
  · obtain ⟨f, member, rfl⟩ := led
    obtain ⟨earlier, later, split⟩ := List.append_of_mem member
    exact (ran.batched_last split).hasFile
  · have elsewhere : ∀ f ∈ p.fragments fs inputs, (p.opened fs).spotOf (p.options.outDir.join f.output) ≠ spot := by
      intro f member
      rw [spotOf_congr ran.grows.home]
      exact fun one => led ⟨f, member, one⟩
    have spared : Spared fs (p.batched fs inputs) spot :=
      Spared.trans (ran.grows.lookup spot) (writeAll_spared (fragments_sound p fs inputs) ran.written elsewhere)
    exact spared.hasFile (file.resolve_right led)

/-- A file that was there or that was written is there at the end, unless it was that of a stale
output and removed. -/
theorem Ran.after_file {spot : Spot}
    (file : fs.HasFile spot ∨ ∃ f ∈ p.fragments fs inputs, p.place fs f.output = spot) :
    after.HasFile spot ∨
      p.options.removeStale = true ∧ ∃ output ∈ report.staleOutputs, p.place fs output = spot := by
  by_cases manifest : spot = p.manifestSpot fs
  · obtain ⟨_, _, found⟩ := read_ok_iff.mp ran.wrote.read
    rw [spotOf_congr (ran.keeps.home.trans ran.batched_keeps.home), ← manifestSpot, ← manifest] at found
    exact .inl ⟨_, found⟩
  · have spared := ran.spared manifest
    rcases (tidied_cleared p (p.batched fs inputs) report.staleOutputs).cases spot with same | ⟨_, output, removed, located⟩
    · obtain ⟨content, found⟩ := ran.batched_file file
      exact .inl (spared.hasFile ⟨content, same.trans found⟩)
    · obtain ⟨_, _, led⟩ := locate_ok_iff.mp located
      rw [spotOf_congr ran.batched_keeps.home] at led
      obtain ⟨on, stale⟩ := mem_toRemove.mp removed
      exact .inr ⟨on, output, stale, led.symm⟩

end

/-- How a run that came to its end accounts for outputs. `done` are its sources, each with its
records if it was generated. -/
structure Tracked (p : Pipeline) (fs : FileStore) (inputs : List Path) (done : Done) (after : FileStore)
    (report : RunReport) : Prop where
  stale : ∀ output, report.staleOutputs.any (·.same output) = true ↔
    (currentOf (p.previous fs) done).lists output = false ∧
      ∃ e ∈ (p.previous fs).entries, e.output.same output = true ∧ (regenerated done).any (·.same e.input) = true
  apart : Apart report.staleOutputs
  saved : ∃ kept, (Manifest.load after p.options.manifestPath).entries =
      (currentOf (p.previous fs) done).entries ++ kept ∧
    ∀ e ∈ kept, p.options.removeStale = false ∧ e ∈ (p.previous fs).entries ∧
      report.staleOutputs.any (·.same e.output) = true
  outputs : ∀ output, (Manifest.load after p.options.manifestPath).lists output = true ↔
    (∃ f ∈ p.fragments fs inputs, f.output.same output = true) ∨
      (p.previous fs).lists output = true ∧
        ¬ (p.options.removeStale = true ∧ report.staleOutputs.any (·.same output) = true)
  files : ∀ spot, fs.HasFile spot ∨ (∃ f ∈ p.fragments fs inputs, p.place fs f.output = spot) →
    after.HasFile spot ∨ p.options.removeStale = true ∧ ∃ output ∈ report.staleOutputs, p.place fs output = spot

/-- A run neither loses an output nor invents one, and it removes no file but those of stale outputs. -/
theorem run_tracks (ok : p.run fs inputs = (after, .ok report)) :
    ∃ results, p.processFiles (p.start fs) inputs = (p.batched fs inputs, .ok results) ∧
      p.Tracked fs inputs (p.doneOf inputs results) after report := by
  obtain ⟨results, ran⟩ := run_ok_iff.mp ok
  have reported := ran.stale
  refine ⟨results, ran.processed, ?_, ?_, ?_, ?_, fun spot file => ran.after_file file⟩
  · intro output
    rw [reported]
    exact Manifest.stale_iff
  · rw [reported]
    exact Manifest.stale_apart _ _ _
  · rw [ran.load, reported]
    exact ⟨_, saved_entries _ _ _, fun e kept => mem_keptOf kept⟩
  · intro output
    rw [ran.load, reported, ← ran.recorded_iff]
    exact lists_saved_iff

def outdatedManifest : Manifest := ⟨Manifest.formatVersion, [⟨⟨"a"⟩, ⟨"b"⟩, "", .written⟩]⟩

def outdated : FileStore :=
  ⟨[], [(["i"], .directory), (["i", "a"], .file markedText.toUTF8), (["o"], .directory), (["o", "b"], .file .empty),
    (["o", "m"], .file outdatedManifest.text.toUTF8)]⟩

theorem previous_outdated : (asking "a").previous outdated = outdatedManifest := by
  have way : (outdated.wayTo (asking "a").options.manifestPath, outdated.spotOf (asking "a").options.manifestPath) =
      ([[], ["o"]], ["o", "m"]) := by decide +kernel
  obtain ⟨way, spot⟩ := Prod.mk.inj way
  have read : outdated.read (asking "a").options.manifestPath = .ok outdatedManifest.text.toUTF8 := by
    rw [read_ok_iff, way, spot]
    exact ⟨by decide +kernel, by simp [Open, outdated, lookup], rfl⟩
  exact previous_of_read (opened_of_isSome (by decide +kernel)) rfl read

theorem run_tracks_outdated :
    ∃ after report, (asking "a").run outdated [⟨"/i/a"⟩] = (after, .ok report) ∧ report.staleOutputs = [⟨"b"⟩] ∧
      (Manifest.load after (asking "a").options.manifestPath).lists ⟨"a"⟩ = true ∧
      (Manifest.load after (asking "a").options.manifestPath).lists ⟨"b"⟩ = false ∧ after.HasFile ["i", "a"] := by
  have evaluated : (outdated.makeDirectory (asking "a").options.outDir).toOption.isSome = true ∧
      ((asking "a").resume outdatedManifest ((asking "a").opened outdated) [⟨"/i/a"⟩]).2.toOption =
        some ⟨1, 1, 0, [], 1, 0, [⟨"b"⟩]⟩ ∧
      ((asking "a").fragments outdated [⟨"/i/a"⟩]).map (·.output) = [⟨"a"⟩] := by
    decide +kernel
  obtain ⟨made, report, outputs⟩ := evaluated
  rw [← run_resumes made previous_outdated] at report
  have ok := run_of_toOption report
  obtain ⟨f, only, output⟩ := List.map_eq_singleton_iff.mp outputs
  obtain ⟨results, _, tracked⟩ := run_tracks ok
  refine ⟨_, _, ok, rfl, ?_, ?_, ?_⟩
  · rw [tracked.outputs, only]
    exact .inl ⟨f, List.mem_singleton_self f, by rw [output]; decide +kernel⟩
  · rw [← Bool.not_eq_true, tracked.outputs, only]
    rintro (⟨g, member, same⟩ | ⟨_, notRemoved⟩)
    · rw [List.mem_singleton.mp member, output] at same
      revert same
      decide +kernel
    · exact notRemoved ⟨rfl, by decide +kernel⟩
  · have there : outdated.HasFile ["i", "a"] := ⟨markedText.toUTF8, rfl⟩
    rcases tracked.files ["i", "a"] (.inl there) with kept | ⟨_, stale, member, led⟩
    · exact kept
    · have apart : (asking "a").place outdated ⟨"b"⟩ ≠ ["i", "a"] := by decide +kernel
      rw [List.mem_singleton.mp member] at led
      exact absurd led apart

end MarkerGen.Pipeline
