import MarkerGen.Proofs.Output.SavedManifest
import MarkerGen.Proofs.Output.Stale
import MarkerGen.Proofs.Run.Ending

/-! What is on disk when a run has come to its end. Every fragment has its entry in the manifest;
its file has the recorded fingerprint unless a later step of the run led to the same spot. -/
namespace MarkerGen.Pipeline

open FileStore Writer

variable {p q : Pipeline} {fs later after : FileStore} {inputs : List Path} {report : RunReport}
  {results : List FileResult}

def place (p : Pipeline) (fs : FileStore) (output : Path) : Spot := fs.spotOf (p.options.outDir.join output)

def manifestSpot (p : Pipeline) (fs : FileStore) : Spot := fs.spotOf p.options.manifestPath

def toRemove (p : Pipeline) (stale : List Path) : List Path := if p.options.removeStale then stale else []

theorem mem_toRemove {stale : List Path} {output : Path} :
    output ∈ p.toRemove stale ↔ p.options.removeStale = true ∧ output ∈ stale := by
  unfold toRemove
  split <;> simp [*]

theorem tidied_cleared (p : Pipeline) (fs : FileStore) (stale : List Path) :
    Cleared fs p.options.outDir (p.toRemove stale) (p.tidied fs stale) := by
  unfold tidied toRemove
  split
  · exact removeAll_cleared fs p.options.outDir stale
  · exact removeAll_cleared fs p.options.outDir []

theorem tidied_of_none (p : Pipeline) (fs : FileStore) {stale : List Path} (none : p.toRemove stale = []) :
    p.tidied fs stale = fs := by
  unfold toRemove at none
  unfold tidied
  split
  next removes =>
    rw [if_pos removes] at none
    rw [none]
    rfl
  next => rfl

theorem fragments_sound (p : Pipeline) (fs : FileStore) (inputs : List Path) : ∀ f ∈ p.fragments fs inputs, f.Sound :=
  fragmentsFrom_sound p (p.start fs) inputs

/-- A run finds the manifest that is there before it. -/
theorem previous_of_read (opened : fs.makeDirectory p.options.outDir = .ok (p.opened fs)) {m : Manifest}
    (version : m.version = Manifest.formatVersion) (read : fs.read p.options.manifestPath = .ok m.text.toUTF8) :
    p.previous fs = m := by
  have grows := makeDirectory_grows opened
  obtain ⟨_, _, found⟩ := read_ok_iff.mp read
  have there : (p.opened fs).lookup (fs.spotOf p.options.manifestPath) = fs.lookup (fs.spotOf p.options.manifestPath) := by
    rcases grows.lookup (fs.spotOf p.options.manifestPath) with same | ⟨empty, _⟩
    · exact same
    · rw [found] at empty
      cases empty
  exact Manifest.load_of_read version (grows.keeps.read read there)

section
variable (ran : p.Ran fs inputs results after report)
include ran

theorem Ran.grows : Grows fs (p.opened fs) := makeDirectory_grows ran.opened

theorem Ran.written : writeAll p.options.outDir (p.opened fs) (p.fragments fs inputs) =
    (p.batched fs inputs, .ok (results.flatMap FileResult.records)) :=
  processFiles_written ran.processed

theorem Ran.apart : Apart ((p.fragments fs inputs).map (·.output)) :=
  fragmentsFrom_apart ran.processed List.Pairwise.nil

theorem Ran.batched_keeps : Keeps fs (p.batched fs inputs) := ran.grows.keeps.trans (writeAll_keeps (fragments_sound p fs inputs) ran.written)

theorem Ran.stale : report.staleOutputs = staleOf (p.previous fs) (p.doneOf inputs results) := by
  rw [ran.report]
  rfl

theorem Ran.wrote : Wrote (p.tidied (p.batched fs inputs) report.staleOutputs) p.options.manifestPath
    (savedOf p.options.removeStale (p.previous fs) (p.doneOf inputs results)).text.toUTF8 after := by
  rw [ran.stale]
  exact writeFile_wrote ran.saved

theorem Ran.tidied_home : (p.tidied (p.batched fs inputs) report.staleOutputs).home = fs.home :=
  (tidied_cleared p _ _).home.trans ran.batched_keeps.home

theorem Ran.keeps : Keeps (p.batched fs inputs) after := (tidied_cleared p _ _).keeps.trans ran.wrote.keeps

theorem Ran.load : Manifest.load after p.options.manifestPath =
    savedOf p.options.removeStale (p.previous fs) (p.doneOf inputs results) :=
  Manifest.load_of_read rfl ran.wrote.read

theorem Ran.spared {spot : Spot} (apart : spot ≠ p.manifestSpot fs) :
    Spared (p.tidied (p.batched fs inputs) report.staleOutputs) after spot := by
  apply ran.wrote.elsewhere
  rw [spotOf_congr ran.tidied_home]
  exact apart

theorem Ran.listed {f : Fragment} (member : f ∈ p.fragments fs inputs) :
    ∃ status, ⟨p.options.layout.sourcePath f.input, f.output, f.fingerprint, status⟩ ∈
      (currentOf (p.previous fs) (p.doneOf inputs results)).entries := by
  obtain ⟨records, warnings, inside, status, recorded⟩ := fragmentsFrom_recorded ran.processed member
  have processed : (p.options.layout.sourcePath f.input, some records) ∈ p.doneOf inputs results := by
    rw [doneOf, List.zip_map]
    exact List.mem_map.mpr ⟨_, inside, rfl⟩
  refine ⟨status, List.mem_append_left _ (List.mem_flatMap.mpr ⟨_, processed, ?_⟩)⟩
  exact List.mem_map_of_mem recorded

end

/-- The last of some fragments that leads to the spot of the first one. -/
def lastAt (p : Pipeline) (fs : FileStore) (f : Fragment) (later : List Fragment) : Fragment :=
  (later.reverse.find? fun g => p.place fs g.output = p.place fs f.output).getD f

/-- Whether the file of a fragment lasts to the end of the run: against the manifest, which is
saved last, against the fragments after it, and against the removal of stale outputs. -/
def Lasts (p : Pipeline) (fs : FileStore) (inputs : List Path) (after : FileStore) (report : RunReport) (f : Fragment)
    (later : List Fragment) : Prop :=
  if p.place fs f.output = p.manifestSpot fs then
    Digest.fingerprint (Manifest.load after p.options.manifestPath).text.toUTF8 = f.fingerprint
  else
    (p.lastAt fs f later).fingerprint = f.fingerprint ∧ ∀ output ∈ p.toRemove report.staleOutputs,
      (p.batched fs inputs).locate (p.options.outDir.join output) ≠ .ok (p.place fs f.output)

theorem Ran.batched_holds (ran : p.Ran fs inputs results after report) {earlier later : List Fragment} {f : Fragment}
    (split : p.fragments fs inputs = earlier ++ f :: later)
    (last : ∀ g ∈ later, p.place fs g.output ≠ p.place fs f.output) :
    (p.batched fs inputs).Holds (p.place fs f.output) f.fingerprint := by
  have written := ran.written
  have sound := fragments_sound p fs inputs
  rw [split] at written sound
  have home := ran.grows.home
  rw [place, ← spotOf_congr home]
  apply writeAll_holds sound written
  intro g member
  rw [spotOf_congr home, spotOf_congr home]
  exact last g member

theorem Holds.unique {fs : FileStore} {spot : Spot} {a b : String} (first : fs.Holds spot a) (second : fs.Holds spot b) :
    a = b := by
  obtain ⟨content, found, rfl⟩ := first
  obtain ⟨other, otherFound, rfl⟩ := second
  rw [found] at otherFound
  cases otherFound
  rfl

theorem Ran.batched_last (ran : p.Ran fs inputs results after report) {earlier later : List Fragment} {f : Fragment}
    (split : p.fragments fs inputs = earlier ++ f :: later) :
    (p.batched fs inputs).Holds (p.place fs f.output) (p.lastAt fs f later).fingerprint := by
  unfold lastAt
  cases found : later.reverse.find? fun g => p.place fs g.output = p.place fs f.output with
  | none =>
    have last : ∀ g ∈ later, p.place fs g.output ≠ p.place fs f.output := by simpa using found
    exact ran.batched_holds split last
  | some g =>
    obtain ⟨one, back, front, whole, others⟩ := List.find?_eq_some_iff_append.mp found
    have one : p.place fs g.output = p.place fs f.output := by simpa using one
    have parts : p.fragments fs inputs = (earlier ++ f :: front.reverse) ++ g :: back.reverse := by
      rw [split, ← List.reverse_reverse later, whole]
      simp
    have last : ∀ x ∈ back.reverse, p.place fs x.output ≠ p.place fs g.output := by
      intro x member
      rw [one]
      simpa using others x (List.mem_reverse.mp member)
    rw [← one]
    exact ran.batched_holds parts last

/-- Exactly when the file of a fragment has the recorded fingerprint at the end of the run. -/
theorem Ran.onDisk_iff (ran : p.Ran fs inputs results after report) {earlier later : List Fragment} {f : Fragment}
    (split : p.fragments fs inputs = earlier ++ f :: later) :
    after.fingerprint (p.options.outDir.join f.output) = .ok (some f.fingerprint) ↔
      p.Lasts fs inputs after report f later := by
  have member : f ∈ p.fragments fs inputs := by simp [split]
  have reaches := ran.keeps.reaches (writeAll_reaches (fragments_sound p fs inputs) ran.written member)
  have home := ran.keeps.home.trans ran.batched_keeps.home
  have onDisk : after.fingerprint (p.options.outDir.join f.output) = .ok (some f.fingerprint) ↔
      after.Holds (p.place fs f.output) f.fingerprint := by
    rw [fingerprint_eq_iff, spotOf_congr home]
    exact and_iff_right reaches
  rw [onDisk, Lasts]
  split
  next same =>
    obtain ⟨_, _, found⟩ := read_ok_iff.mp ran.wrote.read
    rw [spotOf_congr home] at found
    rw [same, ran.load]
    constructor
    · exact Holds.unique ⟨_, found, rfl⟩
    · intro digest
      exact ⟨_, found, digest⟩
  next apart =>
    rw [(ran.spared apart).holds]
    obtain ⟨content, found, digest⟩ := ran.batched_last split
    have cleared := tidied_cleared p (p.batched fs inputs) report.staleOutputs
    constructor
    · intro kept
      have led : ∀ output ∈ p.toRemove report.staleOutputs,
          (p.batched fs inputs).locate (p.options.outDir.join output) ≠ .ok (p.place fs f.output) := by
        intro output stale located
        obtain ⟨_, there, _⟩ := kept
        rw [cleared.gone output stale _ located (by simp [found])] at there
        cases there
      refine ⟨?_, led⟩
      obtain ⟨other, there, sameDigest⟩ := kept
      rw [cleared.spared _ led, found] at there
      cases there
      exact digest.symm.trans sameDigest
    · rintro ⟨last, led⟩
      exact ⟨content, (cleared.spared _ led).trans found, digest.trans last⟩

/-- The outputs of a run, those of the manifest before it included, are relative paths of names
only, and none of them leads to the manifest. -/
structure Plain (p : Pipeline) (fs : FileStore) (inputs : List Path) : Prop where
  fragments : ∀ f ∈ p.fragments fs inputs, f.output.isPlain = true ∧ p.place fs f.output ≠ p.manifestSpot fs
  previous : ∀ e ∈ (p.previous fs).entries, e.output.isPlain = true ∧ p.place fs e.output ≠ p.manifestSpot fs

section
variable (ran : p.Ran fs inputs results after report) (plain : p.Plain fs inputs)
include ran plain

theorem Ran.places : (p.fragments fs inputs).Pairwise fun f g => p.place fs f.output ≠ p.place fs g.output := by
  have apart := List.pairwise_map.mp ran.apart
  refine apart.imp_of_mem fun {f g} first second different one => ?_
  rw [same_of_spotOf_join (plain.fragments f first).1 (plain.fragments g second).1 one] at different
  cases different

theorem Ran.stale_elsewhere {output : Path} (stale : output ∈ report.staleOutputs) {f : Fragment}
    (member : f ∈ p.fragments fs inputs) : p.place fs output ≠ p.place fs f.output := by
  rw [ran.stale] at stale
  obtain ⟨⟨e, earlier, rfl, _⟩, unlisted⟩ := Manifest.mem_staleOutputs stale
  obtain ⟨status, listed⟩ := ran.listed member
  intro one
  have same := same_of_spotOf_join (plain.previous e earlier).1 (plain.fragments f member).1 one
  rw [Manifest.lists_congr same, Manifest.lists_eq_true.mpr ⟨_, listed, beq_self_eq_true _⟩] at unlisted
  cases unlisted

theorem Ran.not_removed {f : Fragment} (member : f ∈ p.fragments fs inputs) :
    ∀ output ∈ p.toRemove report.staleOutputs,
      (p.batched fs inputs).locate (p.options.outDir.join output) ≠ .ok (p.place fs f.output) := by
  intro output removed located
  obtain ⟨_, _, spot⟩ := locate_ok_iff.mp located
  rw [spotOf_congr ran.batched_keeps.home] at spot
  exact ran.stale_elsewhere plain (mem_toRemove.mp removed).2 member spot.symm

theorem Ran.lasts {earlier later : List Fragment} {f : Fragment} (split : p.fragments fs inputs = earlier ++ f :: later) :
    p.Lasts fs inputs after report f later := by
  have member : f ∈ p.fragments fs inputs := by simp [split]
  have places := ran.places plain
  rw [split] at places
  have alone := (List.pairwise_cons.mp (List.pairwise_append.mp places).2.1).1
  have unmatched : (later.reverse.find? fun g => p.place fs g.output = p.place fs f.output) = none := by
    rw [List.find?_eq_none]
    intro g reversed
    simpa using (alone g (List.mem_reverse.mp reversed)).symm
  rw [Lasts, if_neg (plain.fragments f member).2, lastAt, unmatched]
  exact ⟨rfl, ran.not_removed plain member⟩

theorem Ran.onDisk {f : Fragment} (member : f ∈ p.fragments fs inputs) :
    after.fingerprint (p.options.outDir.join f.output) = .ok (some f.fingerprint) := by
  obtain ⟨earlier, later, split⟩ := List.append_of_mem member
  exact (ran.onDisk_iff split).mpr (ran.lasts plain split)

end

/-! Runs one after the other. -/

/-- What the manifest holds after a run. -/
def leaves (p : Pipeline) (fs : FileStore) (inputs : List Path) : Manifest :=
  savedOf p.options.removeStale (p.previous fs)
    (p.doneOf inputs ((p.processFiles (p.start fs) inputs).2.toOption.getD []))

theorem Ran.load_leaves (ran : p.Ran fs inputs results after report) :
    Manifest.load after p.options.manifestPath = p.leaves fs inputs := by
  rw [ran.load, leaves, ran.processed]
  rfl

theorem Ran.previous_eq (first : p.Ran fs inputs results after report) (options : q.options = p.options)
    (left : later.read p.options.manifestPath = after.read p.options.manifestPath)
    (opened : later.makeDirectory q.options.outDir = .ok (q.opened later)) :
    q.previous later = Manifest.load after p.options.manifestPath := by
  rw [first.load]
  apply previous_of_read opened rfl
  rw [options, left]
  exact first.wrote.read

theorem opened_of_isSome (made : (fs.makeDirectory p.options.outDir).toOption.isSome = true) :
    fs.makeDirectory p.options.outDir = .ok (p.opened fs) := by
  cases opened : fs.makeDirectory p.options.outDir with
  | error cause => simp [opened, Except.toOption] at made
  | ok first => rw [← opened_of_made opened, opened]

theorem run_resumes {previous : Manifest} (made : (fs.makeDirectory p.options.outDir).toOption.isSome = true)
    (found : p.previous fs = previous) (inputs : List Path) :
    p.run fs inputs = p.resume previous (p.opened fs) inputs := by
  rw [run, opened_of_isSome made, ← found]
  rfl

/-- A run goes on from the manifest that the one before it left. -/
theorem run_after (ok : p.run fs inputs = (after, .ok report)) (options : q.options = p.options)
    (made : (after.makeDirectory q.options.outDir).toOption.isSome = true) (others : List Path) :
    q.run after others = q.resume (p.leaves fs inputs) (q.opened after) others := by
  obtain ⟨results, ran⟩ := run_ok_iff.mp ok
  apply run_resumes made
  rw [ran.previous_eq options rfl (opened_of_isSome made), ran.load_leaves]

theorem ok_of_toOption {ε α : Type} {result : Except ε α} {value : α} (found : result.toOption = some value) :
    result = .ok value := by
  cases result with
  | error error => cases found
  | ok other =>
    cases found
    rfl

theorem run_of_toOption (found : (p.run fs inputs).2.toOption = some report) :
    p.run fs inputs = ((p.run fs inputs).1, .ok report) := Prod.ext rfl (ok_of_toOption found)

/-- Exactly when the file of a fragment is as recorded in the manifest. -/
theorem run_onDisk_iff (ok : p.run fs inputs = (after, .ok report)) {earlier later : List Fragment} {f : Fragment}
    (split : p.fragments fs inputs = earlier ++ f :: later) :
    (∃ status, ⟨p.options.layout.sourcePath f.input, f.output, f.fingerprint, status⟩ ∈
        (Manifest.load after p.options.manifestPath).entries) ∧
      (after.fingerprint (p.options.outDir.join f.output) = .ok (some f.fingerprint) ↔
        p.Lasts fs inputs after report f later) := by
  obtain ⟨results, ran⟩ := run_ok_iff.mp ok
  have member : f ∈ p.fragments fs inputs := by simp [split]
  constructor
  · obtain ⟨status, listed⟩ := ran.listed member
    refine ⟨status, ?_⟩
    rw [ran.load]
    exact List.mem_append_left _ listed
  · exact ran.onDisk_iff split

/-! A plugin that asks for a file by name, on one enumeration. -/

def markedText : String := "//@x()\nenum E\x7b\x7d"

def markedTree : Node :=
  .mk ⟨0, "translation_unit", "", 0, 15, true, false, false, false⟩
    [.mk ⟨1, "comment", "", 0, 6, true, false, false, false⟩ [],
     .mk ⟨2, "enum_specifier", "", 7, 15, true, false, false, false⟩
      [.mk ⟨3, "type_identifier", "name", 12, 13, true, false, false, false⟩ [],
       .mk ⟨4, "enumerator_list", "body", 13, 15, true, false, false, false⟩ []]]

def alone (strategy : Strategy) : Registry :=
  ⟨[], [⟨⟨"p", "1", ⟨"", "", ""⟩, Plugin.hostInterface, true, [], none, false⟩, 0, ⟨⟨"x"⟩, .any, false, strategy⟩,
    .any⟩], [], false⟩

def asking (name : String) : Pipeline where
  registry := alone fun _ => .ofOutcome (.generated [⟨"", some name, none⟩])
  grammar := fun _ => markedTree
  commentMarkers := true
  options := ⟨⟨"/o"⟩, some ⟨"/i"⟩, [], .perFile, "h", "m", true, 1, 1000, "@", false⟩

def marked : FileStore := ⟨[], [(["i"], .directory), (["i", "a"], .file markedText.toUTF8)]⟩

theorem run_onDisk_asking :
    ∃ after report f, (asking "a").run marked [⟨"/i/a"⟩] = (after, .ok report) ∧
      (asking "a").fragments marked [⟨"/i/a"⟩] = [f] ∧ after.fingerprint ⟨"/o/a"⟩ = .ok (some f.fingerprint) := by
  have evaluated : ((asking "a").run marked [⟨"/i/a"⟩]).2.toOption = some ⟨1, 1, 0, [], 1, 0, []⟩ ∧
      ((asking "a").fragments marked [⟨"/i/a"⟩]).map (·.output) = [⟨"a"⟩] ∧
      (asking "a").place marked ⟨"a"⟩ ≠ (asking "a").manifestSpot marked ∧
      (asking "a").options.outDir.join ⟨"a"⟩ = ⟨"/o/a"⟩ := by
    decide +kernel
  obtain ⟨report, outputs, apart, target⟩ := evaluated
  obtain ⟨f, only, output⟩ := List.map_eq_singleton_iff.mp outputs
  have ok := run_of_toOption report
  have split : (asking "a").fragments marked [⟨"/i/a"⟩] = [] ++ f :: [] := only
  refine ⟨_, _, f, ok, only, ?_⟩
  rw [← target, ← output]
  apply (run_onDisk_iff ok split).2.mpr
  rw [Lasts, if_neg (output ▸ apart)]
  exact ⟨rfl, fun stale removed => by cases removed⟩

/-- A plugin may ask for the file of the manifest, which then takes its place. -/
theorem fragment_lost_to_manifest :
    ∃ after report f, (asking "m").run marked [⟨"/i/a"⟩] = (after, .ok report) ∧
      f ∈ (asking "m").fragments marked [⟨"/i/a"⟩] ∧
      after.fingerprint ((asking "m").options.outDir.join f.output) ≠ .ok (some f.fingerprint) := by
  have evaluated : ((asking "m").run marked [⟨"/i/a"⟩]).2.toOption = some ⟨1, 1, 0, [], 1, 0, []⟩ ∧
      ((asking "m").fragments marked [⟨"/i/a"⟩]).map (fun f =>
        (((asking "m").run marked [⟨"/i/a"⟩]).1.fingerprint ((asking "m").options.outDir.join f.output)).toOption ==
          some (some f.fingerprint)) = [false] := by
    decide +kernel
  obtain ⟨report, compared⟩ := evaluated
  obtain ⟨f, only, different⟩ := List.map_eq_singleton_iff.mp compared
  refine ⟨_, _, f, run_of_toOption report, by rw [only]; exact List.mem_cons_self, fun same => ?_⟩
  rw [same] at different
  simp [Except.toOption] at different

end MarkerGen.Pipeline
