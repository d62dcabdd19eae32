import MarkerGen.Proofs.Output.Stale
import MarkerGen.Proofs.Run.Ending
import Mathlib.Data.List.Pairwise

/-! The manifest of a run that is repeated. The entries of the sources, those of other inputs and
the stale ones that were kept come back in the same order; only the status of what was generated
turns to unchanged. -/
namespace MarkerGen.Pipeline

open Writer

def settledRecord (r : WriteRecord) : WriteRecord := { r with status := .unchanged }

/-- What a source comes to when the run is repeated. -/
def settled (d : Path × Option (List WriteRecord)) : Path × Option (List WriteRecord) :=
  (d.1, d.2.map (·.map settledRecord))

/-- The entries of inputs that are no part of a run. -/
def absentOf (previous : Manifest) (done : Done) : List ManifestEntry :=
  previous.entries.filter fun entry => !(sources done).any (·.same entry.input)

theorem current_entries (previous : Manifest) (done : Done) :
    (currentOf previous done).entries = done.flatMap (rows previous) ++ absentOf previous done := rfl

theorem saved_entries (removeStale : Bool) (previous : Manifest) (done : Done) :
    (savedOf removeStale previous done).entries =
      (currentOf previous done).entries ++ keptOf removeStale previous done := rfl

variable {previous : Manifest} {done : Done} {d : Path × Option (List WriteRecord)} {e : ManifestEntry}
  {removeStale : Bool}

theorem input_of_rows (row : e ∈ rows previous d) : d.1.same e.input = true := by
  unfold rows at row
  split at row
  · obtain ⟨r, _, rfl⟩ := List.mem_map.mp row
    exact beq_self_eq_true _
  · rw [Path.same_comm]
    exact (List.mem_filter.mp row).2

theorem source_of_rows (row : e ∈ done.flatMap (rows previous)) : (sources done).any (·.same e.input) = true := by
  obtain ⟨d, member, row⟩ := List.mem_flatMap.mp row
  exact List.any_eq_true.mpr ⟨d.1, List.mem_map_of_mem member, input_of_rows row⟩

theorem listed_of_mem (row : e ∈ (currentOf previous done).entries) : (currentOf previous done).lists e.output = true :=
  Manifest.lists_eq_true.mpr ⟨e, row, beq_self_eq_true _⟩

/-- An earlier entry whose output no entry of the run has is one of a source that was generated. -/
theorem regenerated_of_unlisted (member : e ∈ previous.entries)
    (unlisted : (currentOf previous done).lists e.output = false) :
    (regenerated done).any (·.same e.input) = true := by
  have notRow : e ∉ (currentOf previous done).entries := by
    intro row
    rw [listed_of_mem row] at unlisted
    cases unlisted
  rw [current_entries, List.mem_append, not_or] at notRow
  -- The entry has a source, for else it would be among the absent ones, and that source was
  -- generated, for else the entry would be carried over.
  have sourced : (sources done).any (·.same e.input) = true := by
    cases present : (sources done).any (·.same e.input) with
    | true => rfl
    | false => exact absurd (List.mem_filter.mpr ⟨member, by rw [present]; rfl⟩) notRow.2
  obtain ⟨source, inside, one⟩ := List.any_eq_true.mp sourced
  obtain ⟨d, among, rfl⟩ := List.mem_map.mp inside
  cases outcome : d.2 with
  | some records =>
    refine List.any_eq_true.mpr ⟨d.1, List.mem_map_of_mem (List.mem_filter.mpr ⟨among, ?_⟩), one⟩
    rw [outcome]
    rfl
  | none =>
    refine absurd (List.mem_flatMap.mpr ⟨d, among, ?_⟩) notRow.1
    rw [rows, outcome]
    exact List.mem_filter.mpr ⟨member, by rw [Path.same_comm]; exact one⟩

theorem mem_keptOf (kept : e ∈ keptOf removeStale previous done) :
    removeStale = false ∧ e ∈ previous.entries ∧ (staleOf previous done).any (·.same e.output) = true := by
  unfold keptOf at kept
  split at kept
  · cases kept
  next off =>
    obtain ⟨output, stale, found⟩ := List.mem_filterMap.mp kept
    have same : e.output.same output = true := by simpa using List.find?_some found
    rw [Path.same_comm] at same
    exact ⟨by simpa using off, List.mem_of_find?_eq_some found, List.any_eq_true.mpr ⟨output, stale, same⟩⟩

/-- A stale entry that is kept: an earlier one of a source that was generated, with an output that
no entry of the run has. -/
theorem kept_spec (kept : e ∈ keptOf removeStale previous done) :
    (regenerated done).any (·.same e.input) = true ∧ (currentOf previous done).lists e.output = false := by
  obtain ⟨_, member, stale⟩ := mem_keptOf kept
  have unlisted := (Manifest.stale_iff.mp stale).1
  exact ⟨regenerated_of_unlisted member unlisted, unlisted⟩

theorem kept_apart : (keptOf removeStale previous done).Pairwise fun a b => a.output.same b.output = false := by
  unfold keptOf
  split
  · exact .nil
  have distinct := (firstOfEach_fresh Path.same [] ((previous.entries.filter fun entry =>
    (regenerated done).any (·.same entry.input) && !(currentOf previous done).lists entry.output).map (·.output))).2
  refine List.pairwise_filterMap.mpr (distinct.imp ?_)
  intro a b different x first y second
  have xa : x.output.same a = true := by simpa using List.find?_some first
  have yb : y.output.same b = true := by simpa using List.find?_some second
  rw [Path.same_congr xa, Path.same_comm, Path.same_congr yb]
  exact different

section
variable (apart : Apart (sources done))
include apart

end

end MarkerGen.Pipeline
