import MarkerGen.Proofs.FileStore.Changes

/-! Writing fragments, one after the other. Each spot is left to the last fragment that leads to
it, and fragments whose files have their content already change nothing. -/
namespace MarkerGen

namespace FileStore

def Holds (fs : FileStore) (spot : Spot) (fingerprint : String) : Prop :=
  ∃ content, fs.lookup spot = some (.file content) ∧ Digest.fingerprint content = fingerprint

theorem Holds.hasFile {fs : FileStore} {spot : Spot} {fingerprint : String} (holds : fs.Holds spot fingerprint) :
    fs.HasFile spot := by
  obtain ⟨content, found, _⟩ := holds
  exact ⟨content, found⟩

def Reaches (fs : FileStore) (p : Path) : Prop := p.text ≠ "" ∧ fs.Open (fs.wayTo p)

theorem Keeps.reaches {before after : FileStore} (kept : Keeps before after) {p : Path} (reached : before.Reaches p) :
    after.Reaches p := by
  refine ⟨reached.1, ?_⟩
  rw [wayTo_congr kept.home]
  exact kept.way reached.2

theorem fingerprint_eq_iff {fs : FileStore} {p : Path} {fingerprint : String} :
    fs.fingerprint p = .ok (some fingerprint) ↔ fs.Reaches p ∧ fs.Holds (fs.spotOf p) fingerprint := by
  have readable : fs.fingerprint p = .ok (some fingerprint) ↔
      ∃ content, fs.read p = .ok content ∧ Digest.fingerprint content = fingerprint := by
    unfold FileStore.fingerprint
    split
    next content read => simp [read]
    next read => simp [read]
    next error _ read => simp [read]
  rw [readable]
  constructor
  · rintro ⟨content, read, digest⟩
    obtain ⟨nonempty, way, found⟩ := read_ok_iff.mp read
    exact ⟨⟨nonempty, way⟩, content, found, digest⟩
  · rintro ⟨⟨nonempty, way⟩, content, found, digest⟩
    exact ⟨content, read_ok_iff.mpr ⟨nonempty, way, found⟩, digest⟩

/-- A spot where nothing was written: what was there is still there, or a directory was made in
an empty place. -/
def Spared (before after : FileStore) (spot : Spot) : Prop :=
  after.lookup spot = before.lookup spot ∨ before.lookup spot = none ∧ after.lookup spot = some .directory

theorem Spared.trans {a b c : FileStore} {spot : Spot} (first : Spared a b spot) (second : Spared b c spot) :
    Spared a c spot := by
  unfold Spared at *
  grind

theorem Spared.file {before after : FileStore} {spot : Spot} (spared : Spared before after spot) {content : ByteArray} :
    after.lookup spot = some (.file content) ↔ before.lookup spot = some (.file content) := by
  unfold Spared at spared
  grind

theorem Spared.hasFile {before after : FileStore} {spot : Spot} (spared : Spared before after spot)
    (file : before.HasFile spot) : after.HasFile spot := by
  obtain ⟨content, found⟩ := file
  exact ⟨content, spared.file.mpr found⟩

theorem Spared.holds {before after : FileStore} {spot : Spot} (spared : Spared before after spot) {fingerprint : String} :
    after.Holds spot fingerprint ↔ before.Holds spot fingerprint := by
  unfold Holds
  simp only [spared.file]

end FileStore

open FileStore

def Fragment.Sound (f : Fragment) : Prop := f.fingerprint = Digest.fingerprint f.contents.toUTF8

theorem Layout.assemble_sound (l : Layout) (input : Path) (sections : List Section) :
    ∀ f ∈ (l.assemble input sections).1, f.Sound := by
  intro f member
  obtain ⟨draft, _, rfl⟩ := List.mem_map.mp member
  rfl

namespace Writer

variable {outDir : Path} {fs after : FileStore}

/-- Either the file was as it should be, or it is written. -/
theorem writeFragment_ok {f : Fragment} {r : WriteRecord} (ok : writeFragment outDir fs f = (after, .ok r)) :
    fs.fingerprint (outDir.join f.output) = .ok (some f.fingerprint) ∧ after = fs ∧ r = record f .unchanged ∨
      fs.writeFile (outDir.join f.output) f.contents.toUTF8 = (after, .ok ()) ∧ r = record f .written := by
  unfold writeFragment at ok
  dsimp only at ok
  split at ok
  · cases ok
  next existing found =>
    split at ok
    next same =>
      cases ok
      exact .inl ⟨same ▸ found, rfl, rfl⟩
    next =>
      cases written : fs.writeFile (outDir.join f.output) f.contents.toUTF8 with
      | mk next result =>
        rw [written] at ok
        cases result with
        | error error => cases ok
        | ok done =>
          cases ok
          exact .inr ⟨rfl, rfl⟩

structure Handled (outDir : Path) (f : Fragment) (before after : FileStore) : Prop where
  keeps : Keeps before after
  reaches : after.Reaches (outDir.join f.output)
  holds : after.Holds (before.spotOf (outDir.join f.output)) f.fingerprint
  elsewhere : ∀ spot, spot ≠ before.spotOf (outDir.join f.output) → Spared before after spot

theorem writeFragment_handled {f : Fragment} (sound : f.Sound) {r : WriteRecord}
    (ok : writeFragment outDir fs f = (after, .ok r)) : Handled outDir f fs after := by
  rcases writeFragment_ok ok with ⟨found, rfl, _⟩ | ⟨written, _⟩
  · obtain ⟨reaches, holds⟩ := fingerprint_eq_iff.mp found
    exact ⟨.refl _, reaches, holds, fun _ _ => .inl rfl⟩
  · have wrote := writeFile_wrote written
    obtain ⟨nonempty, way, found⟩ := read_ok_iff.mp wrote.read
    rw [spotOf_congr wrote.keeps.home] at found
    exact ⟨wrote.keeps, ⟨nonempty, way⟩, ⟨_, found, sound.symm⟩, wrote.elsewhere⟩

theorem writeAll_step (outDir : Path) (fs : FileStore) (f : Fragment) (rest : List Fragment) :
    writeAll outDir fs (f :: rest) = match writeFragment outDir fs f with
      | (fs, .error error) => (fs, .error error)
      | (fs, .ok record) =>
        let (fs, records) := writeAll outDir fs rest
        (fs, records.map (record :: ·)) := (rfl)

theorem writeAll_cons {f : Fragment} {rest : List Fragment} {records : List WriteRecord}
    (ok : writeAll outDir fs (f :: rest) = (after, .ok records)) :
    ∃ middle r others, writeFragment outDir fs f = (middle, .ok r) ∧
      writeAll outDir middle rest = (after, .ok others) ∧ records = r :: others := by
  rw [writeAll_step] at ok
  split at ok
  · cases ok
  next middle r written =>
    cases later : writeAll outDir middle rest with
    | mk final result =>
      rw [later] at ok
      cases result with
      | error error => cases ok
      | ok others =>
        cases ok
        exact ⟨middle, r, others, written, later, rfl⟩

theorem writeAll_append {a b : List Fragment} {records : List WriteRecord}
    (ok : writeAll outDir fs (a ++ b) = (after, .ok records)) :
    ∃ middle first second, writeAll outDir fs a = (middle, .ok first) ∧
      writeAll outDir middle b = (after, .ok second) ∧ records = first ++ second := by
  induction a generalizing fs records with
  | nil => exact ⟨fs, [], records, rfl, ok, rfl⟩
  | cons f a ih =>
    obtain ⟨next, r, others, written, later, rfl⟩ := writeAll_cons ok
    obtain ⟨middle, first, second, front, back, rfl⟩ := ih later
    refine ⟨middle, r :: first, second, ?_, back, rfl⟩
    rw [writeAll_step, written]
    dsimp only
    rw [front]
    rfl

theorem writeAll_concat {a b : List Fragment} {middle : FileStore} {first second : List WriteRecord}
    (front : writeAll outDir fs a = (middle, .ok first)) (back : writeAll outDir middle b = (after, .ok second)) :
    writeAll outDir fs (a ++ b) = (after, .ok (first ++ second)) := by
  induction a generalizing fs first with
  | nil =>
    cases front
    exact back
  | cons f a ih =>
    obtain ⟨next, r, others, written, later, rfl⟩ := writeAll_cons front
    rw [List.cons_append, writeAll_step, written]
    dsimp only
    rw [ih later]
    rfl

theorem writeAll_records {fragments : List Fragment} {records : List WriteRecord}
    (ok : writeAll outDir fs fragments = (after, .ok records)) :
    records.map (fun r => { r with status := .unchanged }) = fragments.map (record · .unchanged) := by
  induction fragments generalizing fs records with
  | nil =>
    cases ok
    rfl
  | cons f rest ih =>
    obtain ⟨middle, r, others, written, later, rfl⟩ := writeAll_cons ok
    rw [List.map_cons, List.map_cons, ih later]
    rcases writeFragment_ok written with ⟨_, _, rfl⟩ | ⟨_, rfl⟩ <;> rfl

theorem writeAll_keeps {fragments : List Fragment} (sound : ∀ f ∈ fragments, f.Sound) {records : List WriteRecord}
    (ok : writeAll outDir fs fragments = (after, .ok records)) : Keeps fs after := by
  induction fragments generalizing fs records with
  | nil =>
    cases ok
    exact .refl _
  | cons f rest ih =>
    obtain ⟨middle, r, others, written, later, rfl⟩ := writeAll_cons ok
    obtain ⟨first, others⟩ := List.forall_mem_cons.mp sound
    exact (writeFragment_handled first written).keeps.trans (ih others later)

theorem writeAll_spared {fragments : List Fragment} (sound : ∀ f ∈ fragments, f.Sound) {records : List WriteRecord}
    (ok : writeAll outDir fs fragments = (after, .ok records)) {spot : Spot}
    (elsewhere : ∀ f ∈ fragments, fs.spotOf (outDir.join f.output) ≠ spot) : Spared fs after spot := by
  induction fragments generalizing fs records with
  | nil =>
    cases ok
    exact .inl rfl
  | cons f rest ih =>
    obtain ⟨middle, r, others, written, later, rfl⟩ := writeAll_cons ok
    obtain ⟨first, others⟩ := List.forall_mem_cons.mp sound
    have handled := writeFragment_handled first written
    have away := List.forall_mem_cons.mp elsewhere
    refine (handled.elsewhere spot (Ne.symm away.1)).trans (ih others later fun g member => ?_)
    rw [spotOf_congr handled.keeps.home]
    exact away.2 g member

/-- A file of a fragment ends up with the fingerprint of the last fragment that leads to its
spot. -/
theorem writeAll_holds {before rest : List Fragment} {f : Fragment} (sound : ∀ g ∈ before ++ f :: rest, g.Sound)
    {records : List WriteRecord} (ok : writeAll outDir fs (before ++ f :: rest) = (after, .ok records))
    (last : ∀ g ∈ rest, fs.spotOf (outDir.join g.output) ≠ fs.spotOf (outDir.join f.output)) :
    after.Holds (fs.spotOf (outDir.join f.output)) f.fingerprint := by
  obtain ⟨middle, _, _, front, back, _⟩ := writeAll_append ok
  obtain ⟨next, _, _, written, later, _⟩ := writeAll_cons back
  have soundFront (g : Fragment) (member : g ∈ before) : g.Sound := sound g (List.mem_append_left _ member)
  have soundRest := List.forall_mem_cons.mp fun g member => sound g (List.mem_append_right before member)
  have kept := writeAll_keeps soundFront front
  have handled := writeFragment_handled soundRest.1 written
  have spots := (kept.trans handled.keeps).home
  refine (writeAll_spared soundRest.2 later fun g member => ?_).holds.mpr ?_
  · rw [spotOf_congr spots]
    exact last g member
  · rw [← spotOf_congr kept.home]
    exact handled.holds

theorem writeAll_reaches {fragments : List Fragment} (sound : ∀ f ∈ fragments, f.Sound) {records : List WriteRecord}
    (ok : writeAll outDir fs fragments = (after, .ok records)) {f : Fragment} (member : f ∈ fragments) :
    after.Reaches (outDir.join f.output) := by
  obtain ⟨front, back, rfl⟩ := List.append_of_mem member
  obtain ⟨middle, _, _, _, back, _⟩ := writeAll_append ok
  obtain ⟨next, _, _, written, later, _⟩ := writeAll_cons back
  have soundRest := List.forall_mem_cons.mp fun g member => sound g (List.mem_append_right front member)
  exact (writeAll_keeps soundRest.2 later).reaches (writeFragment_handled soundRest.1 written).reaches

theorem writeFragment_settled {f : Fragment}
    (there : fs.fingerprint (outDir.join f.output) = .ok (some f.fingerprint)) :
    writeFragment outDir fs f = (fs, .ok (record f .unchanged)) := by
  unfold writeFragment
  simp only [there, if_true]

theorem writeAll_settled {fragments : List Fragment}
    (there : ∀ f ∈ fragments, fs.fingerprint (outDir.join f.output) = .ok (some f.fingerprint)) :
    writeAll outDir fs fragments = (fs, .ok (fragments.map (record · .unchanged))) := by
  induction fragments with
  | nil => rfl
  | cons f rest ih =>
    have found := List.forall_mem_cons.mp there
    simp only [writeAll_step, writeFragment_settled found.1, ih found.2]
    rfl

def Apart (outputs : List Path) : Prop := outputs.Pairwise fun a b => a.same b = false

theorem claim_ok {claimed next : List (Path × String)} {fragments : List Fragment}
    (ok : claim claimed fragments = .ok next) (apart : Apart (claimed.map (·.1))) :
    next.map (·.1) = claimed.map (·.1) ++ fragments.map (·.output) ∧ Apart (next.map (·.1)) := by
  induction fragments generalizing claimed with
  | nil =>
    cases ok
    exact ⟨by simp, apart⟩
  | cons f rest ih =>
    rw [claim] at ok
    split at ok
    · cases ok
    next free =>
      have unclaimed : ∀ a ∈ claimed.map (·.1), a.same f.output = false := by
        simpa [claimant?] using free
      have more : Apart ((claimed ++ [(f.output, f.origin)]).map (·.1)) := by
        rw [List.map_append]
        exact List.pairwise_append.mpr ⟨apart, List.pairwise_singleton _ _, by simpa using unclaimed⟩
      obtain ⟨outputs, distinct⟩ := ih ok more
      exact ⟨by simp [outputs], distinct⟩

end Writer

end MarkerGen
