import MarkerGen.Proofs.Output.AnyOrder
import MarkerGen.Proofs.Run.OnDisk

/-! The order in which the source files of a run get to the writer. With several jobs it is left open,
and if no file is prepared otherwise at another time, it does not show: in every order each file has the
same result, and the run ends alike. -/
namespace MarkerGen

open FileStore Writer

namespace FileStore

structure Alike (fs other : FileStore) : Prop where
  home : other.home = fs.home
  lookup : ∀ spot, other.lookup spot = fs.lookup spot

variable {fs other next : FileStore}

theorem Alike.hasFile (alike : Alike fs other) (spot : Spot) : other.HasFile spot ↔ fs.HasFile spot := by
  rw [HasFile, HasFile, alike.lookup]

theorem Alike.fits (alike : Alike fs other) {p : Path} (fits : fs.Fits p) : other.Fits p := by
  have way := wayTo_congr alike.home p
  have spot := spotOf_congr alike.home p
  refine ⟨fits.nonempty, fits.plain, fun s member => ?_, ?_, ?_⟩
  · rw [alike.hasFile]
    exact fits.way s (way ▸ member)
  · rw [way, spot]
    exact fits.apart
  · rw [spot, alike.lookup]
    exact fits.free

theorem Alike.writeFile (alike : Alike fs other) {p : Path} {content : ByteArray}
    (ok : fs.writeFile p content = (next, .ok ())) :
    ∃ later, other.writeFile p content = (later, .ok ()) ∧ Alike next later := by
  have fits := fits_of_writeFile ok
  obtain ⟨made, written, lookup⟩ := fits.writes content
  obtain ⟨later, otherWritten, otherLookup⟩ := (alike.fits fits).writes content
  rw [ok] at written
  cases written
  have homes := (writeFile_wrote ok).keeps.home
  have otherHomes := (writeFile_wrote otherWritten).keeps.home
  refine ⟨later, otherWritten, by rw [homes, otherHomes, alike.home], fun s => ?_⟩
  rw [lookup, otherLookup, spotOf_congr alike.home, wayTo_congr alike.home, alike.lookup]

theorem Cleared.alike {outDir : Path} {outputs : List Path} {cleared otherCleared : FileStore}
    (first : Cleared fs outDir outputs cleared) (second : Cleared other outDir outputs otherCleared)
    (alike : Alike fs other) : Alike cleared otherCleared := by
  have located (p : Path) (spot : Spot) : other.locate p = .ok spot ↔ fs.locate p = .ok spot :=
    locate_congr alike.home (fun s => by rw [alike.lookup]) p spot
  refine ⟨by rw [first.home, second.home, alike.home], fun spot => ?_⟩
  by_cases led : ∃ output ∈ outputs, fs.locate (outDir.join output) = .ok spot
  · obtain ⟨output, member, here⟩ := led
    by_cases directory : fs.lookup spot = some .directory
    · rw [(first.directories spot).mpr directory, (second.directories spot).mpr ((alike.lookup spot).trans directory)]
    · rw [first.gone output member spot here directory,
        second.gone output member spot ((located _ _).mpr here) (alike.lookup spot ▸ directory)]
  · have away (output : Path) (member : output ∈ outputs) : fs.locate (outDir.join output) ≠ .ok spot :=
      fun here => led ⟨output, member, here⟩
    rw [first.spared spot away, second.spared spot fun output member => mt (located _ _).mp (away output member),
      alike.lookup]

end FileStore

theorem Writer.writeBatch_ok {w next : Writer} {fs files : FileStore} {batch : List Fragment} {records : List WriteRecord}
    (ok : w.writeBatch fs batch = (next, files, .ok records)) :
    next.outDir = w.outDir ∧ writeAll w.outDir fs batch = (files, .ok records) := by
  unfold writeBatch at ok
  split at ok
  · cases ok
  · cases written : writeAll w.outDir fs batch with
    | mk later outcome =>
      rw [written] at ok
      cases ok
      exact ⟨rfl, rfl⟩

namespace Pipeline

variable {p : Pipeline} {fs files after : FileStore} {s next : State} {all inputs order : List Path} {input : Path}
  {made : Path → Prepared} {result : FileResult} {results : List FileResult}

/-- The result of a file that is prepared and has its records, unless it ends the run. -/
def Prepared.result? (records : List WriteRecord) : Prepared → Option FileResult
  | .ready output => some (.generated records output.warnings)
  | .parseFailed error => some (.parseFailed error)
  | .timedOut error => some (.timedOut error)
  | .broken _ => none

def Prepared.answered? (outDir : Path) (fs : FileStore) (prepared : Prepared) : Option FileResult :=
  prepared.result? (prepared.fragments.map (answer outDir fs))

def batches (made : Path → Prepared) (inputs : List Path) : List (List Fragment) :=
  inputs.map fun input => (made input).fragments

/-- Every file comes to the same, at whatever time and after whichever fragments of these files it is
prepared. -/
def Foreseen (p : Pipeline) (fs : FileStore) (inputs : List Path) (made : Path → Prepared) : Prop :=
  ∀ front middle records, (∀ f ∈ front, f ∈ (batches made inputs).flatten) →
    writeAll p.options.outDir fs front = (middle, .ok records) →
      ∀ input ∈ inputs, ∀ clock, (p.prepare middle clock input).2 = made input

structure Midway (p : Pipeline) (fs : FileStore) (inputs : List Path) (made : Path → Prepared) (s : State) : Prop where
  outDir : s.writer.outDir = p.options.outDir
  written : ∃ front records, (∀ f ∈ front, f ∈ (batches made inputs).flatten) ∧
    writeAll p.options.outDir fs front = (s.files, .ok records)

theorem Foreseen.prepare (foreseen : p.Foreseen fs all made) (midway : p.Midway fs all made s) (member : input ∈ all) :
    (p.prepare s.files s.clock input).2 = made input := by
  obtain ⟨front, records, among, written⟩ := midway.written
  exact foreseen front s.files records among written input member s.clock

theorem Midway.sent (midway : p.Midway fs all made s) (member : input ∈ all) {records : List WriteRecord}
    (ok : s.writer.writeBatch s.files (made input).fragments = (next.writer, next.files, .ok records)) :
    p.Midway fs all made next := by
  obtain ⟨front, earlier, among, written⟩ := midway.written
  obtain ⟨outDir, later⟩ := writeBatch_ok ok
  rw [midway.outDir] at outDir later
  refine ⟨outDir, front ++ (made input).fragments, _, ?_, writeAll_concat written later⟩
  exact List.forall_mem_append.mpr
    ⟨among, fun f inside => List.mem_flatten.mpr ⟨_, List.mem_map_of_mem member, inside⟩⟩

/-- A file is processed by sending its batch, which is empty if there is nothing to write. -/
theorem processFile_ok_iff {prepared : Prepared} (comes : (p.prepare s.files s.clock input).2 = prepared) :
    p.processFile s input = (next, .ok result) ↔ ∃ records,
      s.writer.writeBatch s.files prepared.fragments = (next.writer, next.files, .ok records) ∧
        prepared.result? records = some result ∧ next.clock = (p.prepare s.files s.clock input).1 := by
  have quiet : s.writer.writeBatch s.files [] = (s.writer, s.files, .ok []) := rfl
  obtain ⟨files, writer, clock⟩ := next
  subst comes
  unfold processFile
  cases p.prepare s.files s.clock input with
  | mk later outcome =>
    cases outcome with
    | broken error => simp [Prepared.result?]
    | parseFailed error | timedOut error =>
      simp only [Prepared.fragments, Prepared.result?, quiet, Prod.mk.injEq, State.mk.injEq, Except.ok.injEq,
        Option.some.injEq]
      grind
    | ready output =>
      dsimp only [Prepared.fragments, Prepared.result?]
      cases s.writer.writeBatch s.files output.fragments with
      | mk after rest =>
        obtain ⟨stored, outcome⟩ := rest
        cases outcome with
        | error refusal => simp
        | ok records =>
          simp only [Prod.mk.injEq, State.mk.injEq, Except.ok.injEq, Option.some.injEq]
          grind

theorem sendAll_cons_ok_iff {w : Writer} {batch : List Fragment} {rest : List (List Fragment)}
    {parts : List (List WriteRecord)} :
    w.sendAll fs (batch :: rest) = (files, parts.map .ok) ↔ ∃ next middle records others,
      w.writeBatch fs batch = (next, middle, .ok records) ∧ next.sendAll middle rest = (files, others.map .ok) ∧
        parts = records :: others := by
  rw [sendAll_cons]
  cases w.writeBatch fs batch with
  | mk next after =>
    obtain ⟨middle, outcome⟩ := after
    cases parts with
    | nil => simp
    | cons records others => cases outcome <;> simp [Prod.ext_iff, and_assoc, and_comm, and_left_comm]

/-- Files are processed by sending their batches. -/
theorem processFiles_ok_iff (foreseen : p.Foreseen fs all made) (midway : p.Midway fs all made s)
    (among : ∀ input ∈ inputs, input ∈ all) :
    p.processFiles s inputs = (files, .ok results) ↔ ∃ parts : List (List WriteRecord),
      s.writer.sendAll s.files (batches made inputs) = (files, parts.map .ok) ∧
        results.map some = List.zipWith (fun input records => (made input).result? records) inputs parts := by
  induction inputs generalizing s results with
  | nil =>
    rw [processFiles]
    constructor
    · rintro ⟨⟩
      exact ⟨[], rfl, rfl⟩
    · rintro ⟨parts, sent, whole⟩
      obtain ⟨rfl, -⟩ := Prod.mk.inj sent
      rw [List.map_eq_nil_iff.mp whole]
  | cons input rest ih =>
    obtain ⟨here, others⟩ := List.forall_mem_cons.mp among
    have comes := foreseen.prepare midway here
    rw [processFiles_cons_iff]
    constructor
    · rintro ⟨next, result, later, processed, following, rfl⟩
      obtain ⟨records, sent, becomes, _⟩ := (processFile_ok_iff comes).mp processed.eq
      obtain ⟨parts, sentRest, whole⟩ := (ih (midway.sent here sent) others).mp following
      refine ⟨records :: parts, sendAll_cons_ok_iff.mpr ⟨_, _, _, _, sent, sentRest, rfl⟩, ?_⟩
      rw [List.map_cons, List.zipWith_cons_cons, becomes, whole]
    · rintro ⟨parts, sent, whole⟩
      obtain ⟨writer, middle, records, later, first, following, rfl⟩ := sendAll_cons_ok_iff.mp sent
      rw [List.zipWith_cons_cons, List.map_eq_cons_iff] at whole
      obtain ⟨result, laterResults, rfl, becomes, whole⟩ := whole
      have processed : p.processFile s input =
          (⟨middle, writer, (p.prepare s.files s.clock input).1⟩, .ok result) :=
        (processFile_ok_iff comes).mpr ⟨records, first, becomes.symm, rfl⟩
      have reached : p.Midway fs all made ⟨middle, writer, (p.prepare s.files s.clock input).1⟩ :=
        midway.sent here first
      exact ⟨_, result, laterResults, processed_of_ok processed,
        (ih reached others).mpr ⟨later, following, whole⟩, rfl⟩

theorem midway_start (p : Pipeline) (fs : FileStore) (inputs : List Path) (made : Path → Prepared) :
    p.Midway (p.opened fs) inputs made (p.start fs) :=
  ⟨rfl, [], [], List.forall_mem_nil _, rfl⟩

theorem plain_batches (plain : ∀ input ∈ inputs, ∀ f ∈ (made input).fragments, f.output.isPlain = true) :
    ∀ batch ∈ batches made inputs, ∀ f ∈ batch, f.output.isPlain = true :=
  List.forall_mem_map.mpr plain

theorem Foreseen.perm (foreseen : p.Foreseen fs inputs made) (perm : inputs.Perm order) : p.Foreseen fs order made := by
  intro front middle records among written input member
  refine foreseen front middle records (fun f inside => ?_) written input (perm.mem_iff.mpr member)
  exact (perm.map _).flatten.mem_iff.mpr (among f inside)

theorem zipWith_batches (g : List Fragment → List WriteRecord) (inputs : List Path) :
    List.zipWith (fun input records => (made input).result? records) inputs ((batches made inputs).map g) =
      inputs.map fun input => (made input).result? (g (made input).fragments) := by
  rw [batches, List.map_map, List.zipWith_map_right, List.zipWith_self]
  rfl

section
variable (foreseen : p.Foreseen (p.opened fs) inputs made)
include foreseen

theorem processFiles_sends (ok : p.processFiles (p.start fs) inputs = (files, .ok results)) :
    ∃ parts : List (List WriteRecord),
      (fresh p.options.outDir).sendAll (p.opened fs) (batches made inputs) = (files, parts.map .ok) ∧
        results.map some = List.zipWith (fun input records => (made input).result? records) inputs parts :=
  (processFiles_ok_iff foreseen (midway_start p fs inputs made) fun _ => id).mp ok

theorem sent_isOk (ok : p.processFiles (p.start fs) inputs = (files, .ok results)) :
    ∀ sent ∈ ((fresh p.options.outDir).sendAll (p.opened fs) (batches made inputs)).2, sent.isOk = true := by
  obtain ⟨parts, sent, _⟩ := processFiles_sends foreseen ok
  rw [sent]
  exact List.forall_mem_map.mpr fun _ _ => rfl

variable (plain : ∀ input ∈ inputs, ∀ f ∈ (made input).fragments, f.output.isPlain = true)
  (opened : fs.makeDirectory p.options.outDir = .ok (p.opened fs)) (rooted : fs.Rooted)
include plain opened rooted

theorem processFiles_landed (ok : p.processFiles (p.start fs) inputs = (files, .ok results)) :
    results.map some = inputs.map (fun input => (made input).answered? p.options.outDir (p.opened fs)) ∧
      Landed p.options.outDir (p.opened fs) (batches made inputs).flatten files := by
  have allOk := sent_isOk foreseen ok
  obtain ⟨parts, sent, whole⟩ := processFiles_sends foreseen ok
  obtain ⟨answers, landed⟩ :=
    sendAll_landed (plain_batches plain) (rooted.makeDirectory opened) (passable_of_made opened) allOk
  rw [sent] at answers landed
  have divided : parts = (batches made inputs).map (·.map (answer p.options.outDir (p.opened fs))) :=
    (List.map_inj_right fun _ _ same => Except.ok.inj same).mp (answers.trans List.map_map.symm)
  rw [divided, zipWith_batches] at whole
  exact ⟨whole, landed⟩

variable (perm : inputs.Perm order)
include perm

/-- In every order of the files, each has the same result, and the same is stored. -/
theorem processFiles_any_order (ok : p.processFiles (p.start fs) inputs = (files, .ok results)) :
    ∃ (result : Path → FileResult) (other : FileStore), results = inputs.map result ∧
      p.processFiles (p.start fs) order = (other, .ok (order.map result)) ∧ Alike files other := by
  have among : ∀ input ∈ order, input ∈ inputs := fun input member => perm.mem_iff.mpr member
  have permBatches : (batches made inputs).Perm (batches made order) := perm.map _
  have orderOk := (sendAll_isOk_perm permBatches).mp (sent_isOk foreseen ok)
  obtain ⟨whole, landed⟩ := processFiles_landed foreseen plain opened rooted ok
  have plainOrder := plain_batches fun input member => plain input (among input member)
  obtain ⟨answers, otherLanded⟩ :=
    sendAll_landed plainOrder (rooted.makeDirectory opened) (passable_of_made opened) orderOk
  have each (input : Path) (member : input ∈ inputs) : ∃ result ∈ results,
      some result = (made input).answered? p.options.outDir (p.opened fs) := by
    apply List.mem_map.mp
    rw [whole]
    exact List.mem_map_of_mem member
  obtain ⟨result, becomes⟩ : ∃ result : Path → FileResult, ∀ input ∈ inputs,
      some (result input) = (made input).answered? p.options.outDir (p.opened fs) := by
    refine ⟨fun input => ((made input).answered? p.options.outDir (p.opened fs)).getD (.generated [] []),
      fun input member => ?_⟩
    obtain ⟨result, _, same⟩ := each input member
    dsimp only
    rw [← same, Option.getD_some]
  refine ⟨result, ((fresh p.options.outDir).sendAll (p.opened fs) (batches made order)).1, ?_, ?_, ?_⟩
  · apply (List.map_inj_right fun _ _ => Option.some.inj).mp
    rw [whole, List.map_map]
    exact List.map_congr_left fun input member => (becomes input member).symm
  · apply (processFiles_ok_iff foreseen (midway_start p fs inputs made) among).mpr
    refine ⟨_, Prod.ext rfl (answers.trans List.map_map.symm), ?_⟩
    rw [zipWith_batches, List.map_map]
    exact List.map_congr_left fun input member => becomes input (among input member)
  · refine ⟨otherLanded.home.trans landed.home.symm, fun spot => ?_⟩
    exact (landed.lookup_eq otherLanded (fun f => permBatches.flatten.mem_iff) spot).symm

theorem processFiles_ok_any_order :
    (∃ files results, p.processFiles (p.start fs) inputs = (files, .ok results)) ↔
      ∃ files results, p.processFiles (p.start fs) order = (files, .ok results) := by
  constructor
  · rintro ⟨files, results, ok⟩
    obtain ⟨result, other, _, processed, _⟩ := processFiles_any_order foreseen plain opened rooted perm ok
    exact ⟨other, _, processed⟩
  · rintro ⟨files, results, ok⟩
    have plainOrder : ∀ input ∈ order, ∀ f ∈ (made input).fragments, f.output.isPlain = true :=
      fun input member => plain input (perm.mem_iff.mpr member)
    obtain ⟨result, other, _, processed, _⟩ :=
      processFiles_any_order (foreseen.perm perm) plainOrder opened rooted perm.symm ok
    exact ⟨other, _, processed⟩

end

/-- A run ends in the same way in whichever order its files get to the writer. -/
theorem run_any_order {report : RunReport} (foreseen : p.Foreseen (p.opened fs) inputs made)
    (plain : ∀ input ∈ inputs, ∀ f ∈ (made input).fragments, f.output.isPlain = true)
    (rooted : fs.Rooted) (perm : inputs.Perm order) (ok : p.run fs inputs = (after, .ok report)) :
    ∃ (result : Path → FileResult) (other later : FileStore),
      p.processFiles (p.start fs) inputs = (p.batched fs inputs, .ok (inputs.map result)) ∧
      p.processFiles (p.start fs) order = (other, .ok (order.map result)) ∧
      p.finish other (p.previous fs) inputs (inputs.map result) = (later, .ok report) ∧ Alike after later := by
  obtain ⟨results, ran⟩ := run_ok_iff.mp ok
  obtain ⟨result, other, rfl, processed, alike⟩ :=
    processFiles_any_order foreseen plain ran.opened rooted perm ran.processed
  have length := processFiles_length ran.processed
  have tidied := (tidied_cleared p (p.batched fs inputs) report.staleOutputs).alike (tidied_cleared p other _) alike
  obtain ⟨later, saved, same⟩ := tidied.writeFile (ran.stale ▸ ran.saved)
  refine ⟨result, other, later, ran.processed, processed, (finish_ok_iff length).mpr ⟨?_, ran.report⟩, same⟩
  rw [← ran.stale]
  exact saved

/-- What the files come to is foreseen if no output takes the place of one of them. -/
theorem foreseen_of_apart (ignores : p.registry.IgnoresDiagnostics) (safe : p.registry.ThreadSafe)
    (readable : ∀ input ∈ inputs, ∃ content, fs.read input = .ok content)
    (apart : ∀ input ∈ inputs, ∀ other ∈ inputs, ∀ f ∈ (p.prepare fs .start other).2.fragments,
      Writer.place p.options.outDir fs f ≠ fs.spotOf input) :
    p.Foreseen fs inputs fun input => (p.prepare fs .start input).2 := by
  intro front middle records among written input member clock
  have made (f : Fragment) (inside : f ∈ front) :
      ∃ other ∈ inputs, f ∈ (p.prepare fs .start other).2.fragments := by
    obtain ⟨batch, listed, inBatch⟩ := List.mem_flatten.mp (among f inside)
    obtain ⟨other, others, rfl⟩ := List.mem_map.mp listed
    exact ⟨other, others, inBatch⟩
  have sound : ∀ f ∈ front, f.Sound := by
    intro f inside
    obtain ⟨other, _, generated⟩ := made f inside
    exact (prepare_sound p fs .start other f generated).1
  obtain ⟨content, read⟩ := readable input member
  have file := (read_ok_iff.mp read).2.2
  have spared : Spared fs middle (fs.spotOf input) := by
    apply writeAll_spared sound written
    intro f inside
    obtain ⟨other, others, generated⟩ := made f inside
    exact apart input member other others f generated
  have again : middle.read input = .ok content :=
    (writeAll_keeps sound written).read read ((spared.file.mpr file).trans file.symm)
  exact prepare_steady ignores safe (again.trans read.symm) .start clock

end Pipeline

end MarkerGen
