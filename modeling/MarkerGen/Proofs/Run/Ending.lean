import Mathlib.Algebra.Group.Nat.Defs
import MarkerGen.Proofs.Run.Processing

/-! The end of a run: which stale outputs are removed, what the manifest holds, and how the parts
of a run follow each other. -/
namespace MarkerGen

namespace FileStore

theorem locate_congr {fs other : FileStore} (home : other.home = fs.home)
    (directories : ∀ spot, other.lookup spot = some .directory ↔ fs.lookup spot = some .directory) (p : Path) (spot : Spot) :
    other.locate p = .ok spot ↔ fs.locate p = .ok spot := by
  simp only [locate_ok_iff, spotOf_congr home, wayTo_congr home, Open, directories]

/-- Outputs were removed where there were files. -/
structure Cleared (fs : FileStore) (outDir : Path) (outputs : List Path) (after : FileStore) : Prop where
  home : after.home = fs.home
  directories : ∀ spot, after.lookup spot = some .directory ↔ fs.lookup spot = some .directory
  gone : ∀ output ∈ outputs, ∀ spot, fs.locate (outDir.join output) = .ok spot →
    fs.lookup spot ≠ some .directory → after.lookup spot = none
  spared : ∀ spot, (∀ output ∈ outputs, fs.locate (outDir.join output) ≠ .ok spot) →
    after.lookup spot = fs.lookup spot

theorem Cleared.keeps {fs after : FileStore} {outDir : Path} {outputs : List Path}
    (cleared : Cleared fs outDir outputs after) : Keeps fs after :=
  ⟨cleared.home, fun spot => (cleared.directories spot).mpr⟩

theorem Cleared.cases {fs after : FileStore} {outDir : Path} {outputs : List Path}
    (cleared : Cleared fs outDir outputs after) (spot : Spot) :
    after.lookup spot = fs.lookup spot ∨ after.lookup spot = none ∧
      ∃ output ∈ outputs, fs.locate (outDir.join output) = .ok spot := by
  by_cases led : ∃ output ∈ outputs, fs.locate (outDir.join output) = .ok spot
  · obtain ⟨output, member, located⟩ := led
    by_cases directory : fs.lookup spot = some .directory
    · exact .inl (((cleared.directories spot).mpr directory).trans directory.symm)
    · exact .inr ⟨cleared.gone output member spot located directory, output, member, located⟩
  · exact .inl (cleared.spared spot fun output member located => led ⟨output, member, located⟩)

theorem remove_cases (fs : FileStore) (p : Path) :
    (∃ spot content, fs.locate p = .ok spot ∧ fs.lookup spot = some (.file content) ∧ fs.remove p = .ok (fs.erase spot)) ∨
      (∀ spot content, fs.locate p = .ok spot → fs.lookup spot ≠ some (.file content)) ∧
        ∃ error, fs.remove p = .error error := by
  unfold remove
  cases located : fs.locate p with
  | error error => exact .inr ⟨by simp, error, rfl⟩
  | ok spot =>
    dsimp only [bind, Except.bind]
    cases found : fs.lookup spot with
    | none => exact .inr ⟨by rintro _ _ ⟨⟩; simp [found], _, rfl⟩
    | some stored =>
      cases stored with
      | directory => exact .inr ⟨by rintro _ _ ⟨⟩; simp [found], _, rfl⟩
      | file content => exact .inl ⟨spot, content, rfl, found, rfl⟩

theorem remove_cleared (fs : FileStore) (outDir output : Path) :
    Cleared fs outDir [output] ((fs.remove (outDir.join output)).toOption.getD fs) := by
  rcases remove_cases fs (outDir.join output) with ⟨spot, content, located, found, removed⟩ | ⟨nothing, error, refused⟩
  · rw [removed]
    have free : fs.lookup spot ≠ some .directory := by simp [found]
    refine ⟨rfl, fun other => ?_, fun o member other led _ => ?_, fun other away => ?_⟩
    · change (fs.erase spot).lookup other = _ ↔ _
      rw [lookup_erase free]
      split
      next same => simp [same, found]
      next => rfl
    · rw [List.mem_singleton.mp member, located] at led
      cases led
      exact (lookup_erase free spot).trans (if_pos rfl)
    · refine (lookup_erase free other).trans (if_neg ?_)
      rintro rfl
      exact away output List.mem_cons_self located
  · rw [refused]
    refine ⟨rfl, fun _ => Iff.rfl, fun o member spot located free => ?_, fun _ _ => rfl⟩
    rw [List.mem_singleton.mp member] at located
    change fs.lookup spot = none
    cases found : fs.lookup spot with
    | none => rfl
    | some stored =>
      cases stored with
      | directory => exact absurd found free
      | file content => exact absurd found (nothing spot content located)

theorem Cleared.trans {fs middle after : FileStore} {outDir : Path} {a b : List Path}
    (first : Cleared fs outDir a middle) (second : Cleared middle outDir b after) : Cleared fs outDir (a ++ b) after := by
  have located (output : Path) (spot : Spot) := locate_congr first.home first.directories (outDir.join output) spot
  have directories (spot : Spot) := (second.directories spot).trans (first.directories spot)
  refine ⟨second.home.trans first.home, directories, fun output member spot led free => ?_, fun spot away => ?_⟩
  · have stillFree : middle.lookup spot ≠ some .directory := mt (first.directories spot).mp free
    rcases List.mem_append.mp member with inFirst | inSecond
    · have empty := first.gone output inFirst spot led free
      rcases second.cases spot with same | ⟨none, _⟩
      · exact same.trans empty
      · exact none
    · exact second.gone output inSecond spot ((located output spot).mpr led) stillFree
  · have awayFirst := first.spared spot fun output member => away output (List.mem_append_left _ member)
    refine (second.spared spot fun output member led => ?_).trans awayFirst
    exact away output (List.mem_append_right _ member) ((located output spot).mp led)

end FileStore

theorem semaphore_eq (permits : Nat) : semaphore permits =
    if permits < 2 ^ 61 then .ok permits
    else .error ("a semaphore may not have more than MAX_PERMITS permits (" ++ toString maxPermits ++ ")") := by
  have most : permits ≤ maxPermits ↔ permits < 2 ^ 61 := Nat.lt_succ_iff.symm
  simp only [semaphore, most]

theorem semaphore_ok {permits : Nat} (enough : permits < 2 ^ 61) : semaphore permits = .ok permits := by
  rw [semaphore_eq, if_pos enough]

theorem semaphore_panics {permits : Nat} (many : 2 ^ 61 ≤ permits) : ∃ message, semaphore permits = .error message :=
  ⟨_, by rw [semaphore_eq, if_neg (Nat.not_lt.mpr many)]⟩

/-- Two batches can wait for each job, and a semaphore has less than `2 ^ 61` permits. -/
theorem Workers.start_of_few {jobs : Nat} (few : jobs < 2 ^ 60) : Workers.start jobs = .ok ⟨max jobs 1, max jobs 1 * 2⟩ := by
  have word : max jobs 1 * 2 < 2 ^ 64 := by omega
  have doubled : wordProduct (max jobs 1) 2 = .ok (max jobs 1 * 2) := if_pos word
  have batches : semaphore (max jobs 1 * 2) = .ok (max jobs 1 * 2) := semaphore_ok (by omega)
  have files : semaphore (max jobs 1) = .ok (max jobs 1) := semaphore_ok (by omega)
  simp only [Workers.start, doubled, batches, files, bind, Except.bind, pure, Except.pure]

theorem Workers.start_of_many {jobs : Nat} (many : 2 ^ 60 ≤ jobs) : ∃ message, Workers.start jobs = .error message := by
  by_cases word : max jobs 1 * 2 < 2 ^ 64
  · have doubled : wordProduct (max jobs 1) 2 = .ok (max jobs 1 * 2) := if_pos word
    obtain ⟨message, panics⟩ := @semaphore_panics (max jobs 1 * 2) (by omega)
    exact ⟨message, by simp only [Workers.start, doubled, panics, bind, Except.bind]⟩
  · have overflow : wordProduct (max jobs 1) 2 = .error "attempt to multiply with overflow" := if_neg word
    exact ⟨_, by simp only [Workers.start, overflow, bind, Except.bind]; rfl⟩

open FileStore Writer

/-- The records of a source file that was generated. -/
def FileResult.outcome? : FileResult → Option (List WriteRecord)
  | .generated records _ => some records
  | .parseFailed _ | .timedOut _ => none

namespace Pipeline

theorem removeAll_cleared (fs : FileStore) (outDir : Path) (outputs : List Path) :
    Cleared fs outDir outputs (removeAll fs outDir outputs) := by
  induction outputs generalizing fs with
  | nil => exact ⟨rfl, fun _ => Iff.rfl, by simp, fun _ _ => rfl⟩
  | cons output rest ih => exact (remove_cleared fs outDir output).trans (ih _)

/-- The sources of a run, each with its records if it was generated. -/
abbrev Done := List (Path × Option (List WriteRecord))

/-- The manifest entries of a source: those of its records, or the earlier ones. -/
def rows (previous : Manifest) (d : Path × Option (List WriteRecord)) : List ManifestEntry :=
  match d.2 with
  | some records => records.map (entryOf d.1)
  | none => previous.entriesFor d.1

def sources (done : Done) : List Path := done.map (·.1)

def regenerated (done : Done) : List Path := (done.filter (·.2.isSome)).map (·.1)

theorem regenerated_cons (d : Path × Option (List WriteRecord)) (rest : Done) :
    regenerated (d :: rest) = regenerated [d] ++ regenerated rest := by
  unfold regenerated
  rw [← List.map_append, ← List.filter_append, List.singleton_append]

def currentOf (previous : Manifest) (done : Done) : Manifest :=
  ⟨Manifest.formatVersion, currentEntries previous (sources done) (done.flatMap (rows previous))⟩

def staleOf (previous : Manifest) (done : Done) : List Path :=
  previous.staleOutputs (currentOf previous done) (regenerated done)

def keptOf (removeStale : Bool) (previous : Manifest) (done : Done) : List ManifestEntry :=
  if removeStale then [] else staleEntries previous (staleOf previous done)

/-- The manifest at the end of a run. -/
def savedOf (removeStale : Bool) (previous : Manifest) (done : Done) : Manifest :=
  ⟨Manifest.formatVersion, (currentOf previous done).entries ++ keptOf removeStale previous done⟩

def tally (status : WriteStatus) (done : Done) : Nat := (done.flatMap (·.2.getD [])).countP (·.status == status)

section
variable (l : Ledger) (previous : Manifest)

theorem enter_entries (source : Path) (result : FileResult) :
    (l.enter previous source result).entries = l.entries ++ rows previous (source, result.outcome?) ∧
      (l.enter previous source result).regenerated = l.regenerated ++ regenerated [(source, result.outcome?)] := by
  cases result <;> simp [Ledger.enter, rows, FileResult.outcome?, regenerated]

theorem gather_entries (results : List (Path × FileResult)) :
    (Ledger.gather previous l results).entries =
        l.entries ++ (results.map (Prod.map id FileResult.outcome?)).flatMap (rows previous) ∧
      (Ledger.gather previous l results).regenerated =
        l.regenerated ++ regenerated (results.map (Prod.map id FileResult.outcome?)) := by
  induction results generalizing l with
  | nil => simp [Ledger.gather, regenerated]
  | cons r rest ih =>
    obtain ⟨entries, again⟩ := enter_entries l previous r.1 r.2
    obtain ⟨allEntries, allAgain⟩ := ih (l.enter previous r.1 r.2)
    refine ⟨allEntries.trans ?_, allAgain.trans ?_⟩
    · rw [entries, List.map_cons, List.flatMap_cons, List.append_assoc]
      rfl
    · rw [again, List.append_assoc, ← regenerated_cons]
      rfl

theorem enter_counts (source : Path) (result : FileResult) :
    (l.enter previous source result).report.fragmentsWritten =
        l.report.fragmentsWritten + (result.outcome?.getD []).countP (·.status == .written) ∧
      (l.enter previous source result).report.fragmentsUnchanged =
        l.report.fragmentsUnchanged + (result.outcome?.getD []).countP (·.status == .unchanged) := by
  cases result <;> exact ⟨rfl, rfl⟩

theorem gather_counts (results : List (Path × FileResult)) :
    (Ledger.gather previous l results).report.fragmentsWritten =
        l.report.fragmentsWritten + tally .written (results.map (Prod.map id FileResult.outcome?)) ∧
      (Ledger.gather previous l results).report.fragmentsUnchanged =
        l.report.fragmentsUnchanged + tally .unchanged (results.map (Prod.map id FileResult.outcome?)) := by
  induction results generalizing l with
  | nil => exact ⟨rfl, rfl⟩
  | cons r rest ih =>
    have first := enter_counts l previous r.1 r.2
    obtain ⟨written, unchanged⟩ := ih (l.enter previous r.1 r.2)
    refine ⟨written.trans ?_, unchanged.trans ?_⟩
    · rw [first.1, tally, tally, List.map_cons, List.flatMap_cons, List.countP_append, Nat.add_assoc]
      rfl
    · rw [first.2, tally, tally, List.map_cons, List.flatMap_cons, List.countP_append, Nat.add_assoc]
      rfl

end

variable {p : Pipeline} {fs after : FileStore} {inputs : List Path} {report : RunReport}

theorem processFiles_length {s : State} {results : List FileResult} {files : FileStore}
    (ok : p.processFiles s inputs = (files, .ok results)) : results.length = inputs.length := by
  induction inputs generalizing s results with
  | nil =>
    cases ok
    rfl
  | cons input rest ih =>
    obtain ⟨next, result, others, processed, later, rfl⟩ := processFiles_cons_iff.mp ok
    rw [List.length_cons, List.length_cons, ih later]

def resultsOf (p : Pipeline) (inputs : List Path) (results : List FileResult) : List (Path × FileResult) :=
  (inputs.map p.options.layout.sourcePath).zip results

def doneOf (p : Pipeline) (inputs : List Path) (results : List FileResult) : Done :=
  (inputs.map p.options.layout.sourcePath).zip (results.map FileResult.outcome?)

theorem map_resultsOf (p : Pipeline) (inputs : List Path) (results : List FileResult) :
    (p.resultsOf inputs results).map (Prod.map id FileResult.outcome?) = p.doneOf inputs results :=
  List.zip_map_right.symm

theorem sources_doneOf {results : List FileResult} (length : results.length = inputs.length) :
    sources (p.doneOf inputs results) = inputs.map p.options.layout.sourcePath := by
  apply List.map_fst_zip
  rw [List.length_map, List.length_map, length]

theorem flatMap_doneOf {results : List FileResult} (length : results.length = inputs.length) :
    (p.doneOf inputs results).flatMap (·.2.getD []) = results.flatMap FileResult.records := by
  have each (result : FileResult) : result.outcome?.getD [] = result.records := by cases result <;> rfl
  have outcomes : (p.doneOf inputs results).map (·.2) = results.map FileResult.outcome? := by
    apply List.map_snd_zip
    rw [List.length_map, List.length_map, length]
  calc
    _ = ((p.doneOf inputs results).map (·.2)).flatMap (·.getD []) := by rw [List.flatMap_map]
    _ = (results.map FileResult.outcome?).flatMap (·.getD []) := by rw [outcomes]
    _ = results.flatMap FileResult.records := by simp only [List.flatMap_map, each]

/-- The store in which the manifest is saved. -/
def tidied (p : Pipeline) (fs : FileStore) (stale : List Path) : FileStore :=
  if p.options.removeStale then removeAll fs p.options.outDir stale else fs

theorem tidied_eq (p : Pipeline) (fs : FileStore) (previous : Manifest) (done : Done) :
    (if p.options.removeStale then (removeAll fs p.options.outDir (staleOf previous done), [])
      else (fs, staleEntries previous (staleOf previous done))) =
      (p.tidied fs (staleOf previous done), keptOf p.options.removeStale previous done) := by
  unfold tidied keptOf
  split <;> rfl

def reportOf (p : Pipeline) (previous : Manifest) (inputs : List Path) (results : List FileResult) : RunReport :=
  { (Ledger.gather previous (.start inputs) (p.resultsOf inputs results)).report with
    staleOutputs := staleOf previous (p.doneOf inputs results) }

theorem finish_ok_iff {previous : Manifest} {results : List FileResult} (length : results.length = inputs.length) :
    p.finish fs previous inputs results = (after, .ok report) ↔
      (savedOf p.options.removeStale previous (p.doneOf inputs results)).save
          (p.tidied fs (staleOf previous (p.doneOf inputs results))) p.options.manifestPath = (after, .ok ()) ∧
        report = p.reportOf previous inputs results := by
  obtain ⟨entries, again⟩ := gather_entries (.start inputs) previous (p.resultsOf inputs results)
  rw [map_resultsOf] at entries again
  have current : currentEntries previous (inputs.map p.options.layout.sourcePath)
      (Ledger.gather previous (.start inputs) (p.resultsOf inputs results)).entries =
      (currentOf previous (p.doneOf inputs results)).entries := by
    rw [entries, ← sources_doneOf length]
    rfl
  have stale : previous.staleOutputs ⟨Manifest.formatVersion, (currentOf previous (p.doneOf inputs results)).entries⟩
      (Ledger.gather previous (.start inputs) (p.resultsOf inputs results)).regenerated =
      staleOf previous (p.doneOf inputs results) := by
    rw [again]
    rfl
  unfold finish
  dsimp only
  rw [← resultsOf, current, stale, tidied_eq, savedOf, reportOf]
  dsimp only
  generalize Manifest.save _ _ _ = saving
  obtain ⟨files, outcome⟩ := saving
  cases outcome with
  | error error => simp
  | ok done => simp [eq_comm]

def opened (p : Pipeline) (fs : FileStore) : FileStore := (fs.makeDirectory p.options.outDir).toOption.getD fs

def previous (p : Pipeline) (fs : FileStore) : Manifest := Manifest.load (p.opened fs) p.options.manifestPath

def start (p : Pipeline) (fs : FileStore) : State := ⟨p.opened fs, .fresh p.options.outDir, .start⟩

/-- The fragments that are generated in a run, in the order in which they are written. -/
def fragments (p : Pipeline) (fs : FileStore) (inputs : List Path) : List Fragment := p.fragmentsFrom (p.start fs) inputs

def batched (p : Pipeline) (fs : FileStore) (inputs : List Path) : FileStore := (p.processFiles (p.start fs) inputs).1

/-- The parts of a run that comes to its end. -/
structure Ran (p : Pipeline) (fs : FileStore) (inputs : List Path) (results : List FileResult) (after : FileStore)
    (report : RunReport) : Prop where
  opened : fs.makeDirectory p.options.outDir = .ok (p.opened fs)
  staffed : p.options.jobs < 2 ^ 60
  processed : p.processFiles (p.start fs) inputs = (p.batched fs inputs, .ok results)
  saved : (savedOf p.options.removeStale (p.previous fs) (p.doneOf inputs results)).save
    (p.tidied (p.batched fs inputs) (staleOf (p.previous fs) (p.doneOf inputs results))) p.options.manifestPath =
      (after, .ok ())
  report : report = p.reportOf (p.previous fs) inputs results

/-- How a run goes on once its output directory is there. -/
inductive Course (p : Pipeline) (fs : FileStore) (inputs : List Path) : FileStore × Except (Halt RunError) RunReport → Prop
  | overstaffed {message : String} (many : 2 ^ 60 ≤ p.options.jobs)
      (panics : Workers.start p.options.jobs = .error message) : Course p fs inputs (p.opened fs, .error (.panic message))
  | stopped {files : FileStore} {error : RunError} (few : p.options.jobs < 2 ^ 60)
      (processed : p.processFiles (p.start fs) inputs = (files, .error error)) :
      Course p fs inputs (files, .error (.error error))
  | finished {results : List FileResult} {after : FileStore} {ended : Except RunError RunReport}
      (few : p.options.jobs < 2 ^ 60)
      (processed : p.processFiles (p.start fs) inputs = (p.batched fs inputs, .ok results))
      (finish : p.finish (p.batched fs inputs) (p.previous fs) inputs results = (after, ended)) :
      Course p fs inputs (after, ended.mapError .error)

theorem run_course (made : fs.makeDirectory p.options.outDir = .ok (p.opened fs)) (inputs : List Path) :
    p.Course fs inputs (p.run fs inputs) := by
  rw [run, made]
  dsimp only
  rw [resume, ← previous, ← start]
  rcases Nat.lt_or_ge p.options.jobs (2 ^ 60) with few | many
  · rw [Workers.start_of_few few]
    dsimp only
    cases processed : p.processFiles (p.start fs) inputs with
    | mk files outcome =>
      have batched : p.batched fs inputs = files := congrArg Prod.fst processed
      cases outcome with
      | error error => exact .stopped few processed
      | ok results => exact .finished few (by rw [batched, processed]) (by rw [batched])
  · obtain ⟨message, panics⟩ := Workers.start_of_many many
    rw [panics]
    exact .overstaffed many panics

theorem opened_of_made {first : FileStore} (made : fs.makeDirectory p.options.outDir = .ok first) :
    fs.makeDirectory p.options.outDir = .ok (p.opened fs) := by rw [opened, made]; rfl

theorem run_unopened {error : FileError} (refused : fs.makeDirectory p.options.outDir = .error error) :
    p.run fs inputs = (fs, .error (.error (.ofFile p.options.outDir error))) := by rw [run, refused]

theorem mapError_ok_iff {α ε δ : Type} {f : ε → δ} {result : Except ε α} {value : α} :
    result.mapError f = .ok value ↔ result = .ok value := by
  cases result <;> simp [Except.mapError]

theorem run_ok_iff : p.run fs inputs = (after, .ok report) ↔ ∃ results, p.Ran fs inputs results after report := by
  constructor
  · intro ok
    cases made : fs.makeDirectory p.options.outDir with
    | error error =>
      rw [run_unopened made] at ok
      cases ok
    | ok first =>
      have course := run_course (opened_of_made made) inputs
      rw [ok] at course
      generalize outcome : (Except.ok report : Except (Halt RunError) RunReport) = ended at course
      cases course with
      | overstaffed => cases outcome
      | stopped => cases outcome
      | finished few processed finish =>
        rw [mapError_ok_iff.mp outcome.symm] at finish
        obtain ⟨saved, shown⟩ := (finish_ok_iff (processFiles_length processed)).mp finish
        exact ⟨_, opened_of_made made, few, processed, saved, shown⟩
  · rintro ⟨results, ran⟩
    have course := run_course ran.opened inputs
    generalize p.run fs inputs = outcome at course
    cases course with
    | overstaffed many => exact absurd ran.staffed (Nat.not_lt.mpr many)
    | stopped few processed =>
      rw [ran.processed] at processed
      cases processed
    | finished few processed finish =>
      rw [ran.processed] at processed
      cases processed
      rw [(finish_ok_iff (processFiles_length ran.processed)).mpr ⟨ran.saved, ran.report⟩] at finish
      cases finish
      rfl

end Pipeline

end MarkerGen
