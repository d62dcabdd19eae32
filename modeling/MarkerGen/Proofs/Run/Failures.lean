import MarkerGen.Proofs.Output.Collisions
import MarkerGen.Proofs.Run.Ending
import MarkerGen.Proofs.Run.Isolation

/-! How a run over the inputs fails: a file operation is refused, a strategy breaks down, a strict
generator meets an unknown tag, or two fragments have one path. -/
namespace MarkerGen

open Writer

theorem Writer.io_of_not_refused {α : Type} {result : Except WriteError α} {error : WriteError}
    (fine : refused result = false) (failed : result = .error error) : ∃ path cause, error = .io path cause := by
  rw [failed] at fine
  cases error with
  | collision path first second => cases fine
  | io path cause => exact ⟨path, cause, rfl⟩

theorem Writer.claim_error {claimed : List (Path × String)} {fragments : List Fragment} {error : WriteError}
    (failed : claim claimed fragments = .error error) : ∃ path first second, error = .collision path first second := by
  induction fragments generalizing claimed with
  | nil => cases failed
  | cons fragment rest ih =>
    rw [claim] at failed
    split at failed
    · cases failed
      exact ⟨_, _, _, rfl⟩
    · exact ih failed

theorem FileStore.writeFile_not_refused (fs : FileStore) (p : Path) (content : ByteArray) :
    refused (fs.writeFile p content).2 = false := by
  rw [writeFile_eq]
  split
  · rfl
  · split <;> rfl

theorem Generator.generate_error_cases {g : Generator} {u : SourceUnit} {error : RunError}
    (failed : g.generate u = .error error) :
    (∃ attempt message, error = .pluginCrash attempt message) ∨
      ∃ tag location, error = .unknownCapability tag (some location) := by
  rw [generate_result] at failed
  cases ended : (g.found u).findSome? (g.fatal? u) with
  | none =>
    rw [ended] at failed
    cases failed
  | some other =>
    rw [ended] at failed
    cases failed
    obtain ⟨m, _, fatal⟩ := List.exists_of_findSome?_eq_some ended
    unfold fatal? at fatal
    split at fatal
    · cases fatal
      exact .inl ⟨_, _, rfl⟩
    · split at fatal
      · cases fatal
        exact .inr ⟨_, _, rfl⟩
      · cases fatal
    · cases fatal

namespace Pipeline

/-- What ends a run at a source file. -/
inductive Failed (p : Pipeline) (s : State) (input : Path) : RunError → Prop
  | broken {u : SourceUnit} {error : RunError} (generated : p.generator.generate u = .error error) :
      Failed p s input error
  | colliding {output : FileOutput} {path : Path} {first second : String}
      (prepared : (p.prepare s.files s.clock input).2 = .ready output)
      (refused : claim s.writer.claimed output.fragments = .error (.collision path first second)) :
      Failed p s input (.outputCollision path first second)
  | unwritten (path : Path) (cause : FileError) : Failed p s input (.ofFile path cause)

variable {p : Pipeline} {s next : State} {input : Path} {error : RunError} {files : FileStore}

theorem Prepared.ofResult_inj {made other : Except RunError FileOutput}
    (same : Prepared.ofResult made = .ofResult other) : made = other := by
  cases made <;> cases other <;> cases same <;> rfl

/-- A file that is not left out was parsed, and comes to what is generated from it. -/
theorem generate_of_prepare {fs : FileStore} {clock : Clock} (made : Except RunError FileOutput)
    (prepared : (p.prepare fs clock input).2 = .ofResult made) :
    ∃ u, p.frontend.parseFile fs input = .ok u ∧ p.generator.generate u = made := by
  unfold prepare at prepared
  cases parsed : p.frontend.parseFile fs input with
  | error failure =>
    rw [parsed] at prepared
    dsimp only at prepared
    split at prepared <;> cases made <;> cases prepared
  | ok u =>
    rw [parsed] at prepared
    dsimp only at prepared
    split at prepared
    · exact ⟨u, rfl, Prepared.ofResult_inj prepared⟩
    · cases made <;> cases prepared

theorem failed_of_processFile (failed : p.processFile s input = (next, .error error)) : Failed p s input error := by
  unfold processFile at failed
  cases prepared : p.prepare s.files s.clock input with
  | mk clock outcome =>
    rw [prepared] at failed
    cases outcome with
    | parseFailed error | timedOut error => cases failed
    | broken error =>
      cases failed
      obtain ⟨u, _, generated⟩ := generate_of_prepare (.error error) (congrArg Prod.snd prepared)
      exact .broken generated
    | ready output =>
      have ready : (p.prepare s.files s.clock input).2 = .ready output := congrArg Prod.snd prepared
      dsimp only at failed
      unfold writeBatch at failed
      cases free : claim s.writer.claimed output.fragments with
      | error refusal =>
        rw [free] at failed
        cases failed
        obtain ⟨path, first, second, rfl⟩ := claim_error free
        exact .colliding ready free
      | ok claimed =>
        rw [free] at failed
        dsimp only at failed
        cases written : (writeAll s.writer.outDir s.files output.fragments).2 with
        | ok records =>
          rw [written] at failed
          cases failed
        | error refusal =>
          rw [written] at failed
          cases failed
          obtain ⟨path, cause, rfl⟩ := io_of_not_refused (writeAll_not_refused _ _ _) written
          exact .unwritten path cause

theorem processFiles_error {rest : List Path} (failed : p.processFiles s (input :: rest) = (files, .error error)) :
    Failed p s input error ∨
      ∃ next result, Processed p s input next result ∧ p.processFiles next rest = (files, .error error) := by
  rw [processFiles] at failed
  split at failed
  next next other first =>
    cases failed
    exact .inl (failed_of_processFile first)
  next next result first =>
    cases later : p.processFiles next rest with
    | mk final outcome =>
      rw [later] at failed
      cases outcome with
      | ok results => cases failed
      | error other =>
        cases failed
        exact .inr ⟨next, result, processed_of_ok first, later⟩

theorem finish_error {fs after : FileStore} {previous : Manifest} {inputs : List Path} {results : List FileResult}
    (failed : p.finish fs previous inputs results = (after, .error error)) :
    ∃ path cause, error = .ofFile path cause := by
  unfold finish at failed
  dsimp only at failed
  split at failed
  next middle refusal saved =>
    cases failed
    obtain ⟨path, cause, rfl⟩ := io_of_not_refused (FileStore.writeFile_not_refused _ _ _) (congrArg Prod.snd saved)
    exact ⟨path, cause, rfl⟩
  next => cases failed

theorem run_error {fs after : FileStore} {inputs : List Path}
    (failed : p.run fs inputs = (after, .error (.error error))) :
    (∃ path cause, error = .ofFile path cause) ∨
      ∃ files, p.processFiles (p.start fs) inputs = (files, .error error) := by
  cases made : fs.makeDirectory p.options.outDir with
  | error cause =>
    rw [run_unopened made] at failed
    cases failed
    exact .inl ⟨_, _, rfl⟩
  | ok first =>
    have course := run_course (opened_of_made made) inputs
    rw [failed] at course
    generalize outcome : (Except.error (Halt.error error) : Except (Halt RunError) RunReport) = ended at course
    cases course with
    | overstaffed => cases outcome
    | stopped few processed =>
      cases outcome
      exact .inr ⟨_, processed⟩
    | @finished _ _ ended _ _ finish =>
      cases ended with
      | ok report => cases outcome
      | error other =>
        cases outcome
        exact .inl (finish_error finish)

/-- Only too many jobs make a run panic, which has then made its output directory and nothing else. -/
theorem run_panic_iff {fs after : FileStore} {inputs : List Path} :
    (∃ message, p.run fs inputs = (after, .error (.panic message))) ↔
      2 ^ 60 ≤ p.options.jobs ∧ fs.makeDirectory p.options.outDir = .ok after := by
  constructor
  · rintro ⟨message, panicked⟩
    cases made : fs.makeDirectory p.options.outDir with
    | error cause =>
      rw [run_unopened made] at panicked
      cases panicked
    | ok first =>
      have opened := opened_of_made made
      have course := run_course opened inputs
      rw [panicked] at course
      generalize outcome : (Except.error (Halt.panic message) : Except (Halt RunError) RunReport) = ended at course
      cases course with
      | overstaffed many => exact ⟨many, made ▸ opened⟩
      | stopped => cases outcome
      | @finished _ _ ended => cases ended <;> cases outcome
  · rintro ⟨many, made⟩
    have opened := opened_of_made made
    have course := run_course opened inputs
    rw [opened] at made
    cases made
    generalize p.run fs inputs = outcome at course
    cases course with
    | overstaffed => exact ⟨_, rfl⟩
    | stopped few | finished few => exact absurd few (Nat.not_lt.mpr many)

end Pipeline

end MarkerGen
