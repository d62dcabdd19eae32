import MarkerGen.Proofs.Run.Idempotence
import MarkerGen.Proofs.Run.Tracking

/-! Whose outputs a run takes for stale. A source is known by its path below the input directory, or
by its bare file name, so that a run answers for every earlier output of a source of that name. -/
namespace MarkerGen.Pipeline

open FileStore Writer

/-- Whether a run made a source anew: it has inputs of that name, and all of them were generated. -/
def Renewed (done : Done) (source : Path) : Prop :=
  (sources done).any (·.same source) = true ∧ ∀ d ∈ done, d.1.same source = true → d.2.isSome = true

section
variable {previous : Manifest} {done : Done} {output : Path}

theorem current_of_old {e : ManifestEntry} (member : e ∈ previous.entries) (old : ¬ Renewed done e.input) :
    e ∈ (currentOf previous done).entries := by
  rw [current_entries, List.mem_append]
  -- Either no source goes by the name of the entry, or one of them was not generated.
  cases sourced : (sources done).any (·.same e.input) with
  | false => exact .inr (List.mem_filter.mpr ⟨member, by rw [sourced]; rfl⟩)
  | true =>
    obtain ⟨d, among, one, failed⟩ : ∃ d ∈ done, d.1.same e.input = true ∧ d.2 = none := by
      simpa [Renewed, sourced] using old
    refine .inl (List.mem_flatMap.mpr ⟨d, among, ?_⟩)
    rw [rows, failed]
    exact List.mem_filter.mpr ⟨member, by rw [Path.same_comm]; exact one⟩

theorem lists_current_iff :
    (currentOf previous done).lists output = true ↔
      (∃ r ∈ done.flatMap (·.2.getD []), r.output.same output = true) ∨
        ∃ e ∈ previous.entries, e.output.same output = true ∧ ¬ Renewed done e.input := by
  constructor
  · intro listed
    obtain ⟨e, row, one⟩ := Manifest.lists_eq_true.mp listed
    rw [current_entries, List.mem_append] at row
    rcases row with generated | absent
    · obtain ⟨d, among, row⟩ := List.mem_flatMap.mp generated
      unfold rows at row
      split at row
      next records outcome =>
        obtain ⟨r, inside, rfl⟩ := List.mem_map.mp row
        exact .inl ⟨r, List.mem_flatMap.mpr ⟨d, among, by rw [outcome]; exact inside⟩, one⟩
      next failed =>
        obtain ⟨member, own⟩ := List.mem_filter.mp row
        refine .inr ⟨e, member, one, fun renewed => ?_⟩
        have generated := renewed.2 d among (by rw [Path.same_comm]; exact own)
        simp [failed] at generated
    · obtain ⟨member, elsewhere⟩ := List.mem_filter.mp absent
      refine .inr ⟨e, member, one, fun renewed => ?_⟩
      simp [renewed.1] at elsewhere
  · rintro (⟨r, recorded, one⟩ | ⟨e, member, one, old⟩)
    · exact (Manifest.lists_congr one _).symm.trans (listed_of_record recorded)
    · exact Manifest.lists_eq_true.mpr ⟨e, current_of_old member old, one⟩

/-- An earlier output is stale if no record has it and all sources that had it were made anew. -/
theorem stale_iff_renewed (listed : previous.lists output = true) :
    (staleOf previous done).any (·.same output) = true ↔
      ¬ (∃ r ∈ done.flatMap (·.2.getD []), r.output.same output = true) ∧
        ∀ e ∈ previous.entries, e.output.same output = true → Renewed done e.input := by
  obtain ⟨e, member, one⟩ := Manifest.lists_eq_true.mp listed
  have unlisted : (staleOf previous done).any (·.same output) = true ↔
      ¬ (currentOf previous done).lists output = true := by
    rw [Bool.not_eq_true]
    refine Manifest.stale_iff.trans ⟨And.left, fun none => ⟨none, e, member, one, ?_⟩⟩
    exact regenerated_of_unlisted member ((Manifest.lists_congr one _).trans none)
  rw [unlisted, lists_current_iff, not_or]
  refine and_congr_right fun _ => ?_
  constructor
  · intro nothing e member one
    by_contra old
    exact nothing ⟨e, member, one, old⟩
  · rintro all ⟨e, member, one, old⟩
    exact old (all e member one)

end

variable {p q : Pipeline} {fs middle later after : FileStore} {earlier inputs : List Path} {before report : RunReport}
  {made results : List FileResult}

/-- Whether one of the inputs goes by the same name as a given one. -/
def Namesake (p : Pipeline) (inputs : List Path) (input : Path) : Prop :=
  ∃ other ∈ inputs, (p.options.layout.sourcePath other).same (p.options.layout.sourcePath input) = true

theorem namesake_of_renewed (length : results.length = inputs.length) {input : Path}
    (renewed : Renewed (p.doneOf inputs results) (p.options.layout.sourcePath input)) : p.Namesake inputs input := by
  have some := renewed.1
  rw [sources_doneOf length, List.any_map] at some
  exact List.any_eq_true.mp some

theorem namesake_below {dir input : Path} (inDir : p.options.inDir = some dir) (own : Below dir input)
    (below : ∀ other ∈ inputs, Below dir other) :
    p.Namesake inputs input ↔ ∃ other ∈ inputs, other.same input = true := by
  refine exists_congr fun other => and_congr_right fun among => ?_
  rw [Path.same_iff, Path.same_iff, components_sourcePath inDir own, components_sourcePath inDir (below other among),
    List.append_right_inj]

/-- The files that a run takes away: those that removed outputs lead to, but for the manifest. -/
theorem Ran.gone_iff (ran : p.Ran fs inputs results after report) {spot : Spot} (file : fs.HasFile spot) :
    ¬ after.HasFile spot ↔ spot ≠ p.manifestSpot fs ∧ ∃ output ∈ p.toRemove report.staleOutputs,
      (p.batched fs inputs).locate (p.options.outDir.join output) = .ok spot := by
  obtain ⟨content, found⟩ := ran.batched_file (.inl file)
  have cleared := tidied_cleared p (p.batched fs inputs) report.staleOutputs
  constructor
  · intro gone
    have apart : spot ≠ p.manifestSpot fs := by
      rintro rfl
      obtain ⟨_, _, saved⟩ := read_ok_iff.mp ran.wrote.read
      rw [spotOf_congr (ran.keeps.home.trans ran.batched_keeps.home)] at saved
      exact gone ⟨_, saved⟩
    refine ⟨apart, ?_⟩
    rcases cleared.cases spot with same | ⟨_, removed⟩
    · exact absurd ((ran.spared apart).hasFile ⟨content, same.trans found⟩) gone
    · exact removed
  · rintro ⟨apart, output, removed, located⟩ ⟨other, kept⟩
    have empty := cleared.gone output removed spot located (by simp [found])
    rw [(ran.spared apart).file, empty] at kept
    cases kept

theorem Ran.stale_of_gone (ran : p.Ran fs inputs results after report)
    (plain : ∀ e ∈ (p.previous fs).entries, e.output.isPlain = true) {output : Path} (own : output.isPlain = true)
    (file : fs.HasFile (p.place fs output)) (gone : ¬ after.HasFile (p.place fs output)) :
    report.staleOutputs.any (·.same output) = true := by
  obtain ⟨_, stale, removed, located⟩ := (ran.gone_iff file).mp gone
  obtain ⟨_, _, led⟩ := locate_ok_iff.mp located
  rw [spotOf_congr ran.batched_keeps.home] at led
  have reported := (mem_toRemove.mp removed).2
  have listed := reported
  rw [ran.stale] at listed
  obtain ⟨⟨e, member, rfl, _⟩, _⟩ := Manifest.mem_staleOutputs listed
  exact List.any_eq_true.mpr ⟨_, reported, same_of_spotOf_join (plain e member) own led.symm⟩

/-! A second run on a file of the same name as that of the first one. -/

def unmarkedText : String := "//.x()\nenum E\x7b\x7d"

def neighbours : FileStore :=
  ⟨[], [(["i"], .directory), (["i", "a"], .file markedText.toUTF8), (["j"], .directory),
    (["j", "a"], .file unmarkedText.toUTF8), (["j", "b"], .file unmarkedText.toUTF8)]⟩

def served : FileStore := ((asking "b").run neighbours [⟨"/i/a"⟩]).1

theorem run_neighbours :
    (asking "b").run neighbours [⟨"/i/a"⟩] = (served, .ok ⟨1, 1, 0, [], 1, 0, []⟩) ∧
      ∃ f, (asking "b").fragments neighbours [⟨"/i/a"⟩] = [f] ∧ f.input = ⟨"/i/a"⟩ ∧ f.output = ⟨"b"⟩ := by
  have evaluated : ((asking "b").run neighbours [⟨"/i/a"⟩]).2.toOption = some ⟨1, 1, 0, [], 1, 0, []⟩ ∧
      ((asking "b").fragments neighbours [⟨"/i/a"⟩]).map (fun f => (f.input, f.output)) = [(⟨"/i/a"⟩, ⟨"b"⟩)] := by
    decide +kernel
  obtain ⟨report, shapes⟩ := evaluated
  obtain ⟨f, only, shape⟩ := List.map_eq_singleton_iff.mp shapes
  exact ⟨run_of_toOption report, f, only, Prod.mk.inj shape⟩

def resumed (name : String) (input : Path) : FileStore × Except (Halt RunError) RunReport :=
  (asking name).resume ((asking "b").leaves neighbours [⟨"/i/a"⟩]) ((asking name).opened served) [input]

theorem run_served (name : String) (input : Path) : (asking name).run served [input] = resumed name input :=
  run_after (q := asking name) run_neighbours.1 rfl made_served [input]
where
  made_served : (served.makeDirectory ⟨"/o"⟩).toOption.isSome = true := by decide +kernel

/-- Exactly when a run reports the output of an earlier run, and when it takes its file away. -/
theorem run_disturbs_iff (first : p.run fs earlier = (middle, .ok before)) (options : q.options = p.options)
    (left : later.read p.options.manifestPath = middle.read p.options.manifestPath)
    (second : q.run later inputs = (after, .ok report)) {f : Fragment} (member : f ∈ p.fragments fs earlier) :
    ∃ results, q.processFiles (q.start later) inputs = (q.batched later inputs, .ok results) ∧
      (report.staleOutputs.any (·.same f.output) = true ↔
        ¬ (∃ g ∈ q.fragments later inputs, g.output.same f.output = true) ∧
          ∀ e ∈ (Manifest.load middle p.options.manifestPath).entries, e.output.same f.output = true →
            Renewed (q.doneOf inputs results) e.input) ∧
      (later.HasFile (q.place later f.output) →
        (¬ after.HasFile (q.place later f.output) ↔ q.place later f.output ≠ q.manifestSpot later ∧
          ∃ output ∈ q.toRemove report.staleOutputs,
            (q.batched later inputs).locate (q.options.outDir.join output) = .ok (q.place later f.output))) ∧
      (¬ q.Namesake inputs f.input → report.staleOutputs.any (·.same f.output) = false ∧
        ((∀ e ∈ (Manifest.load middle p.options.manifestPath).entries, e.output.isPlain = true) →
          later.HasFile (q.place later f.output) → after.HasFile (q.place later f.output))) ∧
      ∀ dir, q.options.inDir = some dir → Below dir f.input → (∀ input ∈ inputs, Below dir input) →
        (q.Namesake inputs f.input ↔ ∃ input ∈ inputs, input.same f.input = true) := by
  obtain ⟨made, firstRan⟩ := run_ok_iff.mp first
  obtain ⟨results, ran⟩ := run_ok_iff.mp second
  -- The second run finds an entry for the fragment in the manifest, under the name of its source.
  obtain ⟨status, row⟩ := firstRan.listed member
  have entry : ⟨q.options.layout.sourcePath f.input, f.output, f.fingerprint, status⟩ ∈
      (Manifest.load middle p.options.manifestPath).entries := by
    rw [firstRan.load, options]
    exact List.mem_append_left _ row
  have found := firstRan.previous_eq options left ran.opened
  have stale : report.staleOutputs.any (·.same f.output) = true ↔
      ¬ (∃ g ∈ q.fragments later inputs, g.output.same f.output = true) ∧
        ∀ e ∈ (Manifest.load middle p.options.manifestPath).entries, e.output.same f.output = true →
          Renewed (q.doneOf inputs results) e.input := by
    have listed := Manifest.lists_eq_true.mpr ⟨_, entry, Path.same_iff.mpr rfl⟩
    rw [ran.stale, found, stale_iff_renewed listed, ran.recorded_iff]
  refine ⟨results, ran.processed, stale, ran.gone_iff, fun stranger => ?_, fun dir inDir own below =>
    namesake_below inDir own below⟩
  have unreported : ¬ report.staleOutputs.any (·.same f.output) = true := by
    intro reported
    have renewed := (stale.mp reported).2 _ entry (Path.same_iff.mpr rfl)
    exact stranger (namesake_of_renewed (processFiles_length ran.processed) renewed)
  refine ⟨by simpa using unreported, fun plain file => ?_⟩
  by_contra gone
  have plainOwn := plain _ entry
  rw [← found] at plain
  exact unreported (ran.stale_of_gone plain plainOwn file gone)

theorem run_disturbs_served :
    ∃ after report, (asking "b").run served [⟨"/j/b"⟩] = (after, .ok report) ∧
      report.staleOutputs.any (·.same ⟨"b"⟩) = false ∧ after.HasFile ((asking "b").place served ⟨"b"⟩) := by
  have evaluated : (resumed "b" ⟨"/j/b"⟩).2.toOption = some ⟨1, 1, 0, [], 0, 0, []⟩ ∧
      ((asking "b").options.layout.sourcePath ⟨"/j/b"⟩).same
        ((asking "b").options.layout.sourcePath ⟨"/i/a"⟩) = false ∧
      (served.read ⟨"/o/b"⟩).toOption.isSome = true ∧
      ∀ e ∈ ((asking "b").leaves neighbours [⟨"/i/a"⟩]).entries, e.output.isPlain = true := by
    decide +kernel
  obtain ⟨report, apart, content, plain⟩ := evaluated
  obtain ⟨ok, f, only, input, output⟩ := run_neighbours
  obtain ⟨_, first⟩ := run_ok_iff.mp ok
  rw [← run_served] at report
  have second := run_of_toOption report
  obtain ⟨_, _, _, _, strange, _⟩ := run_disturbs_iff ok rfl rfl second (only ▸ List.mem_singleton_self f)
  rw [input, output, first.load_leaves] at strange
  have stranger : ¬ (asking "b").Namesake [⟨"/j/b"⟩] ⟨"/i/a"⟩ := by simp [Namesake, apart]
  have file : served.HasFile ((asking "b").place served ⟨"b"⟩) := by
    obtain ⟨content, read⟩ := Option.isSome_iff_exists.mp content
    obtain ⟨_, _, found⟩ := read_ok_iff.mp (ok_of_toOption read)
    exact ⟨content, found⟩
  obtain ⟨unreported, kept⟩ := strange stranger
  exact ⟨_, _, second, unreported, kept plain file⟩

/-- A run on a file of the same name takes the output away. -/
theorem namesake_takes_output :
    ∃ middle before after report f, (asking "b").run neighbours [⟨"/i/a"⟩] = (middle, .ok before) ∧
      (asking "b").run middle [⟨"/j/a"⟩] = (after, .ok report) ∧
      f ∈ (asking "b").fragments neighbours [⟨"/i/a"⟩] ∧ (⟨"/j/a"⟩ : Path).same f.input = false ∧
      report.staleOutputs.any (·.same f.output) = true ∧
      middle.isFile ((asking "b").options.outDir.join f.output) = true ∧
      after.present ((asking "b").options.outDir.join f.output) = false := by
  have evaluated : (resumed "b" ⟨"/j/a"⟩).2.toOption = some ⟨1, 1, 0, [], 0, 0, [⟨"b"⟩]⟩ ∧
      (⟨"/j/a"⟩ : Path).same ⟨"/i/a"⟩ = false ∧ ([⟨"b"⟩] : List Path).any (·.same ⟨"b"⟩) = true ∧
      served.isFile ((asking "b").options.outDir.join ⟨"b"⟩) = true ∧
      (resumed "b" ⟨"/j/a"⟩).1.present ((asking "b").options.outDir.join ⟨"b"⟩) = false := by
    decide +kernel
  rw [← run_served] at evaluated
  obtain ⟨report, disturbed⟩ := evaluated
  obtain ⟨ok, f, only, input, output⟩ := run_neighbours
  refine ⟨_, _, _, _, f, ok, run_of_toOption report, only ▸ List.mem_singleton_self f, ?_⟩
  rw [input, output]
  exact disturbed

end MarkerGen.Pipeline
