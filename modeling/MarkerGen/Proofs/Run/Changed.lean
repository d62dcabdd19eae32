import MarkerGen.Proofs.Run.OwnSources

/-! How many changes a saved manifest tells of. Entries that are taken over from the manifest before
it keep the status they had there, so that a change counts again in every later run that takes its
entry over. -/
namespace MarkerGen.Pipeline

section
variable {removeStale : Bool} {previous : Manifest} {done : Done} {e : ManifestEntry}

def failedOf (previous : Manifest) (done : Done) : List ManifestEntry :=
  (done.filter (·.2.isNone)).flatMap fun d => previous.entriesFor d.1

/-- The entries that a run takes over from the manifest before it, in the order of the new one. -/
def carriedOf (removeStale : Bool) (previous : Manifest) (done : Done) : List ManifestEntry :=
  failedOf previous done ++ absentOf previous done ++ keptOf removeStale previous done

/-- Whether a run takes an earlier entry over: its source was not made anew, or it is the first entry
of a stale output that is not removed. -/
def Carried (removeStale : Bool) (previous : Manifest) (done : Done) (e : ManifestEntry) : Prop :=
  ¬ Renewed done e.input ∨ removeStale = false ∧ (staleOf previous done).any (·.same e.output) = true ∧
    previous.entries.find? (·.output.same e.output) = some e

theorem changed_rows :
    (done.flatMap (rows previous)).countP (·.status == .written) =
      tally .written done + (failedOf previous done).countP (·.status == .written) := by
  induction done with
  | nil => rfl
  | cons d rest ih =>
    obtain ⟨source, outcome⟩ := d
    rw [tally] at ih ⊢
    rw [List.flatMap_cons, List.countP_append, ih, List.flatMap_cons, List.countP_append]
    cases outcome with
    | none =>
      have first : failedOf previous ((source, none) :: rest) =
          previous.entriesFor source ++ failedOf previous rest := rfl
      rw [first, List.countP_append]
      simp only [rows, Option.getD_none, List.countP_nil]
      omega
    | some records =>
      have none : failedOf previous ((source, some records) :: rest) = failedOf previous rest := rfl
      have own : (rows previous (source, some records)).countP (·.status == .written) =
          records.countP (·.status == .written) := List.countP_map
      rw [none, own, Option.getD_some]
      omega

theorem changed_saved :
    (savedOf removeStale previous done).changed =
      tally .written done + (carriedOf removeStale previous done).countP (·.status == .written) := by
  rw [Manifest.changed, saved_entries, current_entries, carriedOf]
  simp only [List.countP_append, changed_rows]
  omega

theorem mem_failedOf :
    e ∈ failedOf previous done ↔ e ∈ previous.entries ∧ ∃ d ∈ done, d.1.same e.input = true ∧ d.2 = none := by
  simp only [failedOf, Manifest.entriesFor, List.mem_flatMap, List.mem_filter, Option.isNone_iff_eq_none]
  constructor
  · rintro ⟨d, ⟨among, failed⟩, member, own⟩
    exact ⟨member, d, among, by rwa [Path.same_comm], failed⟩
  · rintro ⟨member, d, among, own, failed⟩
    exact ⟨d, ⟨among, failed⟩, member, by rwa [Path.same_comm]⟩

theorem mem_keptOf_iff :
    e ∈ keptOf removeStale previous done ↔ removeStale = false ∧
      (staleOf previous done).any (·.same e.output) = true ∧
        previous.entries.find? (·.output.same e.output) = some e := by
  -- Outputs of one file find the same entry.
  have alike {output : Path} (one : output.same e.output = true) :
      previous.entries.find? (·.output.same output) = previous.entries.find? (·.output.same e.output) := by
    congr 1
    funext other
    rw [Path.same_comm, Path.same_congr one, Path.same_comm]
  constructor
  · intro kept
    obtain ⟨off, _, stale⟩ := mem_keptOf kept
    rw [keptOf, if_neg (by simp [off])] at kept
    obtain ⟨output, _, found⟩ := List.mem_filterMap.mp kept
    have one : e.output.same output = true := by simpa using List.find?_some found
    rw [Path.same_comm] at one
    exact ⟨off, stale, (alike one).symm.trans found⟩
  · rintro ⟨off, stale, found⟩
    obtain ⟨output, inside, one⟩ := List.any_eq_true.mp stale
    rw [keptOf, if_neg (by simp [off])]
    exact List.mem_filterMap.mpr ⟨output, inside, (alike one).trans found⟩

theorem mem_carriedOf :
    e ∈ carriedOf removeStale previous done ↔ e ∈ previous.entries ∧ Carried removeStale previous done e := by
  have old : e ∈ failedOf previous done ∨ e ∈ absentOf previous done ↔
      e ∈ previous.entries ∧ ¬ Renewed done e.input := by
    rw [mem_failedOf, absentOf, List.mem_filter, ← and_or_left]
    refine and_congr_right fun _ => ?_
    cases sourced : (sources done).any (·.same e.input) <;> simp [Renewed, sourced]
  rw [carriedOf, List.mem_append, List.mem_append, old, mem_keptOf_iff, Carried, and_or_left]
  refine or_congr_right ⟨fun kept => ⟨List.mem_of_find?_eq_some kept.2.2, kept⟩, And.right⟩

end

variable {p : Pipeline} {fs after : FileStore} {inputs : List Path} {report : RunReport} {results : List FileResult}

theorem Ran.changed_eq (ran : p.Ran fs inputs results after report) :
    (Manifest.load after p.options.manifestPath).changed = report.fragmentsWritten +
      (carriedOf p.options.removeStale (p.previous fs) (p.doneOf inputs results)).countP (·.status == .written) := by
  have written : report.fragmentsWritten = tally .written (p.doneOf inputs results) := by
    rw [ran.report, ← map_resultsOf]
    exact (gather_counts _ _ _).1.trans (Nat.zero_add _)
  rw [ran.load, changed_saved, written]

theorem Ran.changed_iff (ran : p.Ran fs inputs results after report) :
    (Manifest.load after p.options.manifestPath).changed = report.fragmentsWritten ↔
      ∀ e ∈ (p.previous fs).entries, Carried p.options.removeStale (p.previous fs) (p.doneOf inputs results) e →
        e.status = .unchanged := by
  have other (status : WriteStatus) : ¬ (status == .written) = true ↔ status = .unchanged := by cases status <;> decide
  rw [ran.changed_eq, Nat.add_eq_left, List.countP_eq_zero]
  simp only [mem_carriedOf, and_imp, other]

/-- The changes that a saved manifest tells of are those of the report and those of the entries that
were taken over, so the two agree if no entry of an earlier change was taken over. -/
theorem run_changed_iff (ok : p.run fs inputs = (after, .ok report)) :
    ∃ results, p.processFiles (p.start fs) inputs = (p.batched fs inputs, .ok results) ∧
      (Manifest.load after p.options.manifestPath).changed = report.fragmentsWritten +
        (carriedOf p.options.removeStale (p.previous fs) (p.doneOf inputs results)).countP (·.status == .written) ∧
      ((Manifest.load after p.options.manifestPath).changed = report.fragmentsWritten ↔
        ∀ e ∈ (p.previous fs).entries, Carried p.options.removeStale (p.previous fs) (p.doneOf inputs results) e →
          e.status = .unchanged) := by
  obtain ⟨results, ran⟩ := run_ok_iff.mp ok
  exact ⟨results, ran.processed, ran.changed_eq, ran.changed_iff⟩

theorem run_changed_neighbours :
    ∃ after report, (asking "b").run neighbours [⟨"/i/a"⟩] = (after, .ok report) ∧ report.fragmentsWritten = 1 ∧
      (Manifest.load after (asking "b").options.manifestPath).changed = 1 := by
  have new : (asking "b").previous neighbours = .empty := by decide +kernel
  obtain ⟨results, _, _, agree⟩ := run_changed_iff run_neighbours.1
  rw [new] at agree
  exact ⟨_, _, run_neighbours.1, rfl, agree.mpr (List.forall_mem_nil _)⟩

/-- A run that writes nothing saves a manifest with a change: the entry of a file that is no part of
the run still says what an earlier run did. -/
theorem earlier_change_counts_again :
    ∃ after report, (asking "b").run served [⟨"/j/b"⟩] = (after, .ok report) ∧ report.fragmentsWritten = 0 ∧
      0 < (Manifest.load after (asking "b").options.manifestPath).changed := by
  have evaluated : (resumed "b" ⟨"/j/b"⟩).2.toOption = some ⟨1, 1, 0, [], 0, 0, []⟩ ∧
      ∃ e ∈ ((asking "b").leaves neighbours [⟨"/i/a"⟩]).entries, e.status = .written ∧
        ((asking "b").options.layout.sourcePath ⟨"/j/b"⟩).same e.input = false := by
    decide +kernel
  obtain ⟨report, e, member, written, apart⟩ := evaluated
  rw [← run_served] at report
  have ok := run_of_toOption report
  obtain ⟨results, ran⟩ := run_ok_iff.mp ok
  obtain ⟨_, first⟩ := run_ok_iff.mp run_neighbours.1
  have found := (first.previous_eq rfl rfl ran.opened).trans first.load_leaves
  have old : ¬ Renewed ((asking "b").doneOf [⟨"/j/b"⟩] results) e.input := by
    intro renewed
    have named := renewed.1
    rw [sources_doneOf (processFiles_length ran.processed)] at named
    simp [apart] at named
  refine ⟨_, _, ok, rfl, Nat.pos_of_ne_zero fun none => ?_⟩
  have settled := ran.changed_iff.mp none e (found ▸ member) (.inl old)
  rw [written] at settled
  cases settled

end MarkerGen.Pipeline
