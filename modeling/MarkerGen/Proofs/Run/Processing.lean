import MarkerGen.Proofs.Output.Writing
import MarkerGen.Proofs.Run.Purity

/-! Processing source files in order. All that it does to the store is to write the fragments of
the files, one after the other. -/
namespace MarkerGen

open FileStore Writer

def FileResult.records : FileResult → List WriteRecord
  | .generated records _ => records
  | .parseFailed _ | .timedOut _ => []

namespace Pipeline

def Prepared.fragments : Prepared → List Fragment
  | .ready output => output.fragments
  | .parseFailed _ | .timedOut _ | .broken _ => []

/-- The fragments that are generated from source files, in the order in which they are written. -/
def fragmentsFrom (p : Pipeline) (s : State) : List Path → List Fragment
  | [] => []
  | input :: rest => (p.prepare s.files s.clock input).2.fragments ++ p.fragmentsFrom (p.processFile s input).1 rest

/-- What processing a source file comes to unless it ends the run. -/
inductive Processed (p : Pipeline) (s : State) (input : Path) : State → FileResult → Prop
  | parseFailed {clock : Clock} {error : RunError}
      (prepared : p.prepare s.files s.clock input = (clock, .parseFailed error)) :
      Processed p s input { s with clock } (.parseFailed error)
  | timedOut {clock : Clock} {error : RunError}
      (prepared : p.prepare s.files s.clock input = (clock, .timedOut error)) :
      Processed p s input { s with clock } (.timedOut error)
  | generated {clock : Clock} {output : FileOutput} {claimed : List (Path × String)} {files : FileStore}
      {records : List WriteRecord} (prepared : p.prepare s.files s.clock input = (clock, .ready output))
      (free : claim s.writer.claimed output.fragments = .ok claimed)
      (written : writeAll s.writer.outDir s.files output.fragments = (files, .ok records)) :
      Processed p s input ⟨files, { s.writer with claimed }, clock⟩ (.generated records output.warnings)

variable {p : Pipeline} {s next : State} {input : Path} {inputs : List Path} {result : FileResult}
  {results : List FileResult} {files : FileStore}

theorem processed_of_ok (ok : p.processFile s input = (next, .ok result)) : Processed p s input next result := by
  unfold processFile at ok
  cases prepared : p.prepare s.files s.clock input with
  | mk clock outcome =>
    rw [prepared] at ok
    cases outcome with
    | parseFailed error =>
      cases ok
      exact .parseFailed prepared
    | timedOut error =>
      cases ok
      exact .timedOut prepared
    | broken error => cases ok
    | ready output =>
      dsimp only at ok
      unfold writeBatch at ok
      cases free : claim s.writer.claimed output.fragments with
      | error error =>
        rw [free] at ok
        cases ok
      | ok claimed =>
        rw [free] at ok
        dsimp only at ok
        cases written : writeAll s.writer.outDir s.files output.fragments with
        | mk files outcome =>
          rw [written] at ok
          cases outcome with
          | error error => cases ok
          | ok records =>
            cases ok
            exact .generated prepared free written

theorem Processed.eq (processed : Processed p s input next result) : p.processFile s input = (next, .ok result) := by
  unfold processFile
  cases processed with
  | parseFailed prepared => rw [prepared]
  | timedOut prepared => rw [prepared]
  | generated prepared free written =>
    rw [prepared]
    dsimp only
    unfold writeBatch
    rw [free]
    dsimp only
    rw [written]

theorem processFiles_cons_iff {rest : List Path} :
    p.processFiles s (input :: rest) = (files, .ok results) ↔
      ∃ next result others, Processed p s input next result ∧ p.processFiles next rest = (files, .ok others) ∧
        results = result :: others := by
  constructor
  · intro ok
    rw [processFiles] at ok
    split at ok
    · cases ok
    next next result processed =>
      cases later : p.processFiles next rest with
      | mk final outcome =>
        rw [later] at ok
        cases outcome with
        | error error => cases ok
        | ok others =>
          cases ok
          exact ⟨next, result, others, processed_of_ok processed, later, rfl⟩
  · rintro ⟨next, result, others, processed, later, rfl⟩
    rw [processFiles, processed.eq]
    dsimp only
    rw [later]
    rfl

theorem Processed.fragments_cons (processed : Processed p s input next result) (rest : List Path) :
    p.fragmentsFrom s (input :: rest) =
      (p.prepare s.files s.clock input).2.fragments ++ p.fragmentsFrom next rest := by
  rw [fragmentsFrom, processed.eq]

theorem Processed.written (processed : Processed p s input next result) :
    next.writer.outDir = s.writer.outDir ∧
      writeAll s.writer.outDir s.files (p.prepare s.files s.clock input).2.fragments = (next.files, .ok result.records) := by
  cases processed with
  | parseFailed prepared | timedOut prepared =>
    rw [prepared]
    exact ⟨rfl, rfl⟩
  | generated prepared free written =>
    rw [prepared]
    exact ⟨rfl, written⟩

/-- Processing source files writes their fragments. -/
theorem processFiles_written (ok : p.processFiles s inputs = (files, .ok results)) :
    writeAll s.writer.outDir s.files (p.fragmentsFrom s inputs) = (files, .ok (results.flatMap FileResult.records)) := by
  induction inputs generalizing s results with
  | nil =>
    cases ok
    rfl
  | cons input rest ih =>
    obtain ⟨next, result, others, processed, later, rfl⟩ := processFiles_cons_iff.mp ok
    obtain ⟨outDir, written⟩ := processed.written
    rw [processed.fragments_cons, List.flatMap_cons]
    exact writeAll_concat written (outDir ▸ ih later)

theorem prepare_ready {fs : FileStore} {clock later : Clock} {output : FileOutput}
    (prepared : p.prepare fs clock input = (later, .ready output)) :
    ∀ f ∈ output.fragments, f.Sound ∧ f.input = input := by
  unfold prepare at prepared
  cases parsed : p.frontend.parseFile fs input with
  | error failure =>
    rw [parsed] at prepared
    dsimp only at prepared
    split at prepared <;> cases prepared
  | ok u =>
    rw [parsed] at prepared
    dsimp only at prepared
    split at prepared
    · unfold Generator.trace at prepared
      dsimp only at prepared
      cases handled : (p.generator.handle u .start (Scan.matchesOf p.generator.lead u)).2 with
      | error error =>
        rw [handled] at prepared
        cases prepared
      | ok progress =>
        rw [handled] at prepared
        cases prepared
        intro f member
        refine ⟨Layout.assemble_sound _ _ _ f member, ?_⟩
        obtain ⟨draft, _, rfl⟩ := List.mem_map.mp member
        exact Frontend.path_parseFile parsed
    · cases prepared

theorem prepare_sound (p : Pipeline) (fs : FileStore) (clock : Clock) (input : Path) :
    ∀ f ∈ (p.prepare fs clock input).2.fragments, f.Sound ∧ f.input = input := by
  cases prepared : p.prepare fs clock input with
  | mk later outcome =>
    cases outcome with
    | ready output => exact prepare_ready prepared
    | parseFailed error | timedOut error | broken error => exact List.forall_mem_nil _

theorem fragmentsFrom_sound (p : Pipeline) (s : State) (inputs : List Path) : ∀ f ∈ p.fragmentsFrom s inputs, f.Sound := by
  induction inputs generalizing s with
  | nil => exact List.forall_mem_nil _
  | cons input rest ih =>
    intro f member
    rcases List.mem_append.mp member with first | later
    · exact (prepare_sound p s.files s.clock input f first).1
    · exact ih _ f later

theorem fragmentsFrom_apart (ok : p.processFiles s inputs = (files, .ok results))
    (apart : Apart (s.writer.claimed.map (·.1))) :
    Apart (s.writer.claimed.map (·.1) ++ (p.fragmentsFrom s inputs).map (·.output)) := by
  induction inputs generalizing s results with
  | nil => simpa [fragmentsFrom] using apart
  | cons input rest ih =>
    obtain ⟨next, result, others, processed, later, rfl⟩ := processFiles_cons_iff.mp ok
    rw [processed.fragments_cons, List.map_append, ← List.append_assoc]
    cases processed with
    | parseFailed prepared | timedOut prepared =>
      rw [prepared, Prepared.fragments, List.map_nil, List.append_nil]
      exact ih later apart
    | generated prepared free written =>
      obtain ⟨outputs, distinct⟩ := claim_ok free apart
      rw [prepared, Prepared.fragments, ← outputs]
      exact ih later distinct

theorem fragmentsFrom_recorded (ok : p.processFiles s inputs = (files, .ok results)) {f : Fragment}
    (member : f ∈ p.fragmentsFrom s inputs) :
    ∃ records warnings, (f.input, .generated records warnings) ∈ inputs.zip results ∧
      ∃ status, record f status ∈ records := by
  induction inputs generalizing s results with
  | nil => cases member
  | cons input rest ih =>
    obtain ⟨next, result, others, processed, later, rfl⟩ := processFiles_cons_iff.mp ok
    rw [processed.fragments_cons] at member
    rcases List.mem_append.mp member with first | following
    · cases processed with
      | parseFailed prepared | timedOut prepared =>
        rw [prepared] at first
        cases first
      | generated prepared free written =>
        rw [prepared] at first
        obtain ⟨_, named⟩ := prepare_ready prepared f first
        have listed : record f .unchanged ∈ _ := writeAll_records written ▸ List.mem_map_of_mem first
        obtain ⟨r, inside, same⟩ := List.mem_map.mp listed
        rw [named]
        refine ⟨_, _, List.mem_cons_self, r.status, ?_⟩
        have whole : record f r.status = r := by
          cases r
          cases same
          rfl
        rw [whole]
        exact inside
    · obtain ⟨records, warnings, inside, status, recorded⟩ := ih later following
      exact ⟨records, warnings, List.mem_cons_of_mem _ inside, status, recorded⟩

end Pipeline

end MarkerGen
