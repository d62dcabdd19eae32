import MarkerGen.Output.Manifest
import MarkerGen.Proofs.FileStore.Changes
import MarkerGen.Proofs.Json.RoundTrip

/-! The manifest on disk. What is saved is loaded again, whatever the paths and fingerprints are. -/
namespace MarkerGen.Manifest

theorem status?_name (status : WriteStatus) : status? (.str (some status.name)) = some status := by
  cases status <;> rfl

theorem entry?_entryToJson (e : ManifestEntry) : entry? (entryToJson e) = some e := by
  have fields : record? ["input", "output", "fingerprint", "status"] (entryToJson e) =
      some [.text e.input.text, .text e.output.text, .text e.fingerprint, .text e.status.name] := rfl
  rw [ entry?, fields]
  simp [Json.text, text?, status?_name]

theorem entries?_toJson (entries : List ManifestEntry) : entries? (.arr (entries.map entryToJson)) = some entries := by
  rw [entries?, List.mapM_map]
  induction entries with
  | nil => rfl
  | cons e rest ih =>
    rw [List.mapM_cons, ih]
    simp [ entry?_entryToJson]

theorem ofJson?_toJson {m : Manifest} (version : m.version = formatVersion) : ofJson? m.toJson = some m := by
  have fields : record? ["version", "entries"] m.toJson = some [.nat m.version, .arr (m.entries.map entryToJson)] := rfl
  have word : word? 32 (.nat m.version) = some m.version := by
    rw [version]
    rfl
  rw [ofJson?, fields]
  simp [word, entries?_toJson]

theorem spelled_toJson {m : Manifest} (version : m.version = formatVersion) : m.toJson.spelled = true := by
  have items : ∀ entries : List ManifestEntry, Json.spelledItems (entries.map entryToJson) = true := by
    intro entries
    induction entries with
    | nil => rfl
    | cons e rest ih => exact Bool.and_eq_true_iff.mpr ⟨rfl, ih⟩
  have number : (Json.nat m.version).spelled = true := by
    rw [version]
    rfl
  simp [toJson, Json.object, Json.spelled, Json.spelledFields, number, items]

theorem parse?_text {m : Manifest} (version : m.version = formatVersion) : parse? m.text = some m := by
  have text : m.text = String.ofList (m.toJson.write (some 0) ++ ['\n']) := by
    rw [Manifest.text, Json.pretty, String.ofList_append]
  rw [parse?, text, Json.parse?_write (spelled_toJson version), Option.bind_some, ofJson?_toJson version, Option.filter,
    version]
  rfl

theorem readText_of_read {fs : FileStore} {path : Path} {text : String} (read : fs.read path = .ok text.toUTF8) :
    fs.readText path = .ok text := by
  have decoded : String.fromUTF8? text.toUTF8 = some text := dif_pos text.isValidUTF8
  rw [FileStore.readText, read]
  dsimp only [bind, Except.bind]
  rw [decoded]
  rfl

theorem load_of_read {fs : FileStore} {path : Path} {m : Manifest} (version : m.version = formatVersion)
    (read : fs.read path = .ok m.text.toUTF8) : load fs path = m := by
  rw [load, readText_of_read read]
  dsimp only
  rw [parse?_text version, Option.getD_some]

/-- A manifest that was saved is loaded as it was, and saving it again succeeds and changes no file. -/
theorem load_saved {m : Manifest} {fs after : FileStore} {path : Path} (version : m.version = formatVersion)
    (saved : m.save fs path = (after, .ok ())) :
    load after path = m ∧ after.read path = .ok m.text.toUTF8 ∧
      ∃ again, (load after path).save after path = (again, .ok ()) ∧ again.read path = after.read path ∧
        ∀ spot, again.lookup spot = after.lookup spot := by
  have wrote := FileStore.writeFile_wrote saved
  have loaded := load_of_read version wrote.read
  obtain ⟨_, _, found⟩ := FileStore.read_ok_iff.mp wrote.read
  rw [FileStore.spotOf_congr wrote.keeps.home] at found
  obtain ⟨again, written, home, lookup⟩ := wrote.again after m.text.toUTF8 (.refl after) (by simp [found])
  refine ⟨loaded, wrote.read, again, loaded ▸ written, ?_, fun spot => ?_⟩
  · rw [wrote.read]
    exact (FileStore.writeFile_wrote written).read
  · rw [lookup]
    split
    next same => rw [same, found]
    next => rfl

/-- A manifest whose texts hold all that is escaped, and more. -/
def awkward : Manifest :=
  ⟨formatVersion, ["a\"b\\c\n", "\t\r\x01\x1f\x7f", "é\u2028😀"].map fun text => ⟨⟨text⟩, ⟨text⟩, text, .written⟩⟩

theorem load_saved_awkward :
    ∃ after, awkward.version = formatVersion ∧ awkward.save ⟨[], []⟩ ⟨"/o/m"⟩ = (after, .ok ()) ∧
      load after ⟨"/o/m"⟩ = awkward := by
  have ok : (awkward.save ⟨[], []⟩ ⟨"/o/m"⟩).2.toOption = some () := by decide +kernel
  have saved : awkward.save ⟨[], []⟩ ⟨"/o/m"⟩ = ((awkward.save ⟨[], []⟩ ⟨"/o/m"⟩).1, .ok ()) := by
    cases outcome : (awkward.save ⟨[], []⟩ ⟨"/o/m"⟩).2 with
    | error error =>
      rw [outcome] at ok
      cases ok
    | ok done => exact Prod.ext rfl outcome
  exact ⟨_, rfl, saved, (load_saved rfl saved).1⟩

end MarkerGen.Manifest
