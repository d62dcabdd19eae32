import MarkerGen.Program
import MarkerGen.Proofs.Run.Failures

/-! How the program ends. All that can be refused at the start is refused before a file is touched
and without a look at the sources; what fails later is of another kind. -/
namespace MarkerGen

/-- The errors with which the program refuses to start. A required tag that nothing provides has no
place, unlike an unknown tag in a source file. -/
def RunError.refusesStart : RunError → Bool
  | .config _ | .pluginLoad _ | .incompatiblePlugin .. | .duplicateCapability _ | .unknownCapability _ none => true
  | _ => false

namespace FileStore

variable {fs other : FileStore}

theorem isFile_eq (fs : FileStore) (p : Path) : fs.isFile p = (fs.read p).toOption.isSome := by
  unfold isFile read
  cases fs.stat p with
  | error error => rfl
  | ok stored => cases stored <;> rfl

/-- What is read at a path depends on the directories of a store and on the spot of the path. -/
theorem read_congr (home : other.home = fs.home)
    (directories : ∀ spot, other.lookup spot = some .directory ↔ fs.lookup spot = some .directory) {p : Path}
    (here : other.lookup (fs.spotOf p) = fs.lookup (fs.spotOf p)) :
    (other.read p).toOption = (fs.read p).toOption := by
  have same (content : ByteArray) : other.read p = .ok content ↔ fs.read p = .ok content := by
    simp only [read_ok_iff, spotOf_congr home, wayTo_congr home, Open, directories, here]
  cases first : fs.read p with
  | ok content => rw [(same content).mpr first]
  | error error =>
    cases second : other.read p with
    | error _ => rfl
    | ok content =>
      rw [(same content).mp second] at first
      cases first

end FileStore

/-! ### The two kinds of errors -/

theorem refusesStart_config (e : ConfigError) : e.toRunError.refusesStart = true := rfl

theorem refusesStart_load (e : LoadError) : e.toRunError.refusesStart = true := by cases e <;> rfl

theorem refusesStart_registry (e : RegistryError) : e.toRunError.refusesStart = true := by cases e <;> rfl

theorem Pipeline.Failed.kind {p : Pipeline} {s : State} {input : Path} {error : RunError}
    (failed : p.Failed s input error) : error.refusesStart = false ∧ error.isFatal = true := by
  cases failed with
  | broken generated =>
    rcases Generator.generate_error_cases generated with ⟨attempt, message, rfl⟩ | ⟨tag, location, rfl⟩
    · exact ⟨rfl, rfl⟩
    · exact ⟨rfl, rfl⟩
  | colliding prepared refused => exact ⟨rfl, rfl⟩
  | unwritten path cause => exact ⟨rfl, rfl⟩

theorem Pipeline.processFiles_kind {p : Pipeline} {s : State} {inputs : List Path} {files : FileStore}
    {error : RunError} (failed : p.processFiles s inputs = (files, .error error)) :
    error.refusesStart = false ∧ error.isFatal = true := by
  induction inputs generalizing s with
  | nil => cases failed
  | cons input rest ih =>
    rcases processFiles_error failed with here | ⟨next, result, _, later⟩
    · exact here.kind
    · exact ih later

theorem Pipeline.run_kind {p : Pipeline} {fs after : FileStore} {inputs : List Path} {error : RunError}
    (failed : p.run fs inputs = (after, .error (.error error))) :
    error.refusesStart = false ∧ error.isFatal = true := by
  rcases run_error failed with ⟨path, cause, rfl⟩ | ⟨files, processed⟩
  · exact ⟨rfl, rfl⟩
  · exact processFiles_kind processed

namespace Program

variable {host : Host} {fs other : FileStore} {line : CommandLine} {error : RunError}

/-- A part of the start that fails in such a way only. -/
def FailsWith {ε α : Type} (way : ε → Prop) (result : Except ε α) : Prop := ∀ e, result = .error e → way e

def Refuses (error : RunError) : Prop := error.refusesStart = true

def RefusesOrPanics : Halt RunError → Prop
  | .error error => Refuses error
  | .panic _ => True

section
variable {α β ε δ : Type} {way : ε → Prop} {result : Except ε α}

theorem FailsWith.bind {next : α → Except ε β} (first : FailsWith way result)
    (later : ∀ value, FailsWith way (next value)) : FailsWith way (result >>= next) := by
  cases result with
  | ok value => exact later value
  | error error =>
    rintro _ ⟨⟩
    exact first error rfl

theorem failsWith_ok (value : α) : FailsWith way (.ok value) := fun _ failed => by cases failed

theorem FailsWith.mapError {other : δ → Prop} {f : ε → δ} (first : FailsWith way result)
    (known : ∀ cause, way cause → other (f cause)) : FailsWith other (result.mapError f) := by
  intro error failed
  cases result with
  | ok value => cases failed
  | error cause =>
    cases failed
    exact known cause (first cause rfl)

theorem failsWith_any (result : Except ε α) : FailsWith (fun _ => True) result := fun _ _ => trivial

end

theorem addPlugin_refuses (r : Registry) (loaded : Except LoadError LoadedPlugin) : FailsWith Refuses (addPlugin r loaded) := by
  cases loaded with
  | error cause =>
    rintro _ ⟨⟩
    exact refusesStart_load cause
  | ok loaded => exact (failsWith_any _).mapError fun cause _ => refusesStart_registry cause

theorem addPlugins_refuses (plugins : List (Except LoadError LoadedPlugin)) (r : Registry) :
    FailsWith Refuses (plugins.foldlM addPlugin r) := by
  induction plugins generalizing r with
  | nil => exact failsWith_ok r
  | cons loaded rest ih =>
    rw [List.foldlM_cons]
    exact (addPlugin_refuses r loaded).bind ih

theorem prepare_refuses (registry : Registry) (config : Config) (outDir : Path) :
    FailsWith RefusesOrPanics (prepare registry config outDir) := by
  refine (failsWith_any _).mapError fun cause _ => ?_
  cases cause with
  | error cause => exact refusesStart_registry cause
  | panic message => trivial

theorem setUp_refuses (host : Host) (fs : FileStore) (line : CommandLine) :
    FailsWith RefusesOrPanics (setUp host fs line) := by
  refine ((failsWith_any _).mapError fun cause _ => refusesStart_config cause).bind fun config => ?_
  have built (config : Config) : FailsWith RefusesOrPanics ((buildRegistry host fs line config).mapError .error) :=
    (addPlugins_refuses _ _).mapError fun _ refuses => refuses
  refine (built config).bind fun registry => ?_
  dsimp only
  split
  · exact (prepare_refuses registry config _).bind fun _ => failsWith_ok _
  · exact failsWith_ok _

/-! ### Panics -/

def givenTo (settings : List (String × Json)) (outDir : Path) (plugin : Plugin) : PluginSettings :=
  ⟨((settings.find? (·.1 == plugin.id)).map (·.2)).getD .null, outDir⟩

/-- A load hook panics, and those before it come to their end. -/
def HookPanics (settings : List (String × Json)) (outDir : Path) (plugins : List Plugin) : Prop :=
  ∃ front plugin back hook message, plugins = front ++ plugin :: back ∧ plugin.onLoad = some hook ∧
    hook (givenTo settings outDir plugin) = .error (.panic message) ∧
    ∀ earlier ∈ front, ∀ other, earlier.onLoad = some other → other (givenTo settings outDir earlier) = .ok ()

theorem hookPanics_cons (settings : List (String × Json)) (outDir : Path) (plugin : Plugin) (rest : List Plugin) :
    HookPanics settings outDir (plugin :: rest) ↔
      (∃ hook message, plugin.onLoad = some hook ∧ hook (givenTo settings outDir plugin) = .error (.panic message)) ∨
        (∀ hook, plugin.onLoad = some hook → hook (givenTo settings outDir plugin) = .ok ()) ∧
          HookPanics settings outDir rest := by
  constructor
  · rintro ⟨front, panicking, back, hook, message, split, has, panics, before⟩
    cases front with
    | nil =>
      cases split
      exact .inl ⟨hook, message, has, panics⟩
    | cons first front =>
      cases split
      obtain ⟨own, later⟩ := List.forall_mem_cons.mp before
      exact .inr ⟨own, front, panicking, back, hook, message, rfl, has, panics, later⟩
  · rintro (⟨hook, message, has, panics⟩ | ⟨own, front, panicking, back, hook, message, rfl, has, panics, before⟩)
    · exact ⟨[], plugin, rest, hook, message, rfl, has, panics, by simp⟩
    · exact ⟨plugin :: front, panicking, back, hook, message, rfl, has, panics, List.forall_mem_cons.mpr ⟨own, before⟩⟩

theorem runHooks_panic_iff (settings : List (String × Json)) (outDir : Path) (plugins : List Plugin) :
    (∃ message, (Registry.runHooks settings outDir plugins).2 = .error (.panic message)) ↔
      HookPanics settings outDir plugins := by
  induction plugins with
  | nil => simp [Registry.runHooks, HookPanics]
  | cons plugin rest ih =>
    rw [hookPanics_cons, ← ih, Registry.runHooks]
    cases has : plugin.onLoad with
    | none => simp
    | some hook =>
      dsimp only
      rw [← givenTo]
      cases ended : hook (givenTo settings outDir plugin) with
      | ok done => simp [ended]
      | error halt => cases halt <;> simp [ended, Halt.map]

def hookSettings (config : Config) : List (String × Json) := config.plugins.map fun (id, setting) => (id, setting.toJson)

theorem prepare_panic_iff (registry : Registry) (config : Config) (outDir : Path) :
    (∃ message, prepare registry config outDir = .error (.panic message)) ↔
      HookPanics (hookSettings config) outDir (registry.plugins.map (·.plugin)) := by
  rw [← runHooks_panic_iff, prepare, ← hookSettings, Registry.runLoadHooks]
  cases (Registry.runHooks (hookSettings config) outDir (registry.plugins.map (·.plugin))).2 with
  | ok done =>
    dsimp only [Except.bind]
    cases registry.require _ <;> simp [Except.mapError, Halt.map]
  | error halt => cases halt <;> simp [Except.bind, Except.mapError, Halt.map]

/-- The start gets as far as the load hooks, and one of them panics. -/
def StartPanics (host : Host) (fs : FileStore) (line : CommandLine) : Prop :=
  ∃ config registry, line.configure fs host.environment (workDir fs) = .ok config ∧
    buildRegistry host fs line config = .ok registry ∧ line.listPlugins = false ∧
    HookPanics (hookSettings config) (line.targetDir (workDir fs)) (registry.plugins.map (·.plugin))

theorem setUp_panic_iff (host : Host) (fs : FileStore) (line : CommandLine) :
    (∃ message, setUp host fs line = .error (.panic message)) ↔ StartPanics host fs line := by
  unfold setUp StartPanics
  cases line.configure fs host.environment (workDir fs) with
  | error cause => simp [Except.mapError, bind, Except.bind]
  | ok config =>
    cases built : buildRegistry host fs line config with
    | error cause => simp [built, Except.mapError, bind, Except.bind]
    | ok registry =>
      have hooks := prepare_panic_iff registry config (line.targetDir (workDir fs))
      cases line.listPlugins with
      | true => simp [built, Except.mapError, bind, Except.bind, pure, Except.pure]
      | false =>
        simp only [Except.mapError, bind, Except.bind, built, Except.ok.injEq, exists_and_left, exists_eq_left',
          Bool.not_false, if_true, true_and]
        rw [← hooks]
        cases prepare registry config (line.targetDir (workDir fs)) with
        | ok done => simp [pure, Except.pure]
        | error halt => simp

/-! ### What the start reads -/

/-- The settings files of a command line: the one it names, or else those that are looked for. -/
def settingsFiles (line : CommandLine) (dir : Path) : List Path :=
  match line.config with
  | some path => [path]
  | none => Config.fileNames.map dir.join

/-- The files among the texts that name plugins. -/
def pluginFiles (line : CommandLine) : List Path :=
  (line.plugins.filter fun name => (Text.afterLead? "builtin:" name).isNone).map Path.mk

theorem load_congr {openModule : ByteArray → SharedModule} {name : String}
    (same : Text.afterLead? "builtin:" name = none → (other.read ⟨name⟩).toOption = (fs.read ⟨name⟩).toOption) :
    Plugin.load openModule other name = Plugin.load openModule fs name := by
  unfold Plugin.load
  cases lead : Text.afterLead? "builtin:" name with
  | some id => rfl
  | none =>
    dsimp only
    unfold Plugin.loadLibrary
    rw [FileStore.isFile_eq, FileStore.isFile_eq, same lead]

theorem file?_cases (fs : FileStore) (line : CommandLine) (dir : Path) :
    (∀ other : FileStore, (∀ path ∈ settingsFiles line dir, (other.read path).toOption = (fs.read path).toOption) →
      Config.file? other dir line.config = Config.file? fs dir line.config) ∧
    ∀ path, Config.file? fs dir line.config = .ok (some path) → path ∈ settingsFiles line dir := by
  unfold settingsFiles Config.file?
  cases line.config with
  | some path =>
    refine ⟨fun other same => ?_, fun found chosen => ?_⟩
    · simp only [FileStore.isFile_eq, same path (List.mem_singleton_self path)]
    · dsimp only at chosen
      split at chosen
      · cases chosen
        exact List.mem_singleton_self _
      · cases chosen
  | none =>
    refine ⟨fun other same => ?_, fun found chosen => ?_⟩
    · have alike : ∀ path ∈ Config.fileNames.map dir.join, other.isFile path = fs.isFile path := by
        intro path member
        rw [FileStore.isFile_eq, FileStore.isFile_eq, same path member]
      rw [← List.head?_filter, ← List.head?_filter, List.filter_congr alike]
    · exact List.mem_of_find?_eq_some (Except.ok.inj chosen)

theorem readFile_congr {path : Path} (same : (other.read path).toOption = (fs.read path).toOption) :
    Config.readFile other path = Config.readFile fs path := by
  rw [Config.readFile, Config.readFile, FileStore.readText_eq, FileStore.readText_eq, same]

theorem configure_congr {environment : Environment.Variables} (dir : Path)
    (same : ∀ path ∈ settingsFiles line dir, (other.read path).toOption = (fs.read path).toOption) :
    line.configure other environment dir = line.configure fs environment dir := by
  obtain ⟨alike, inside⟩ := file?_cases fs line dir
  unfold CommandLine.configure Config.load
  rw [alike other same]
  cases chosen : Config.file? fs dir line.config with
  | error error => rfl
  | ok file =>
    cases file with
    | none => rfl
    | some path =>
      have read : Config.readFile other path = Config.readFile fs path :=
        readFile_congr (same path (inside path chosen))
      simp only [bind, Except.bind, read]

/-- The start of the program reads the settings files and the files among the plugins, and no other. -/
theorem setUp_congr (home : other.home = fs.home)
    (settings : ∀ path ∈ settingsFiles line (workDir fs), (other.read path).toOption = (fs.read path).toOption)
    (plugins : ∀ path ∈ pluginFiles line, (other.read path).toOption = (fs.read path).toOption) :
    setUp host other line = setUp host fs line := by
  have dir : workDir other = workDir fs := by rw [workDir, workDir, home]
  have chosen : choosePlugins host other line = choosePlugins host fs line := by
    unfold choosePlugins
    split
    · rfl
    · refine List.map_congr_left fun name member => load_congr fun free => plugins ⟨name⟩ ?_
      exact List.mem_map_of_mem (List.mem_filter.mpr ⟨member, by rw [free]; rfl⟩)
  unfold setUp buildRegistry
  rw [dir, configure_congr (workDir fs) settings, chosen]

/-! ### The end of the program -/

def pipeline (host : Host) (fs : FileStore) (line : CommandLine) (setup : Setup) : Pipeline where
  registry := setup.registry
  grammar := host.grammar
  commentMarkers := setup.config.scanner.commentMarkers
  options := .ofConfig setup.config (line.targetDir (workDir fs)) (some (line.sourceDir (workDir fs))) line.includePaths

def ending (host : Host) (fs : FileStore) (line : CommandLine) :
    FileStore × Except (Halt RunError) (Option RunReport) :=
  match setUp host fs line with
  | .error reason => (fs, .error reason)
  | .ok setup =>
    if line.listPlugins then (fs, .ok none)
    else
      let (after, result) := (pipeline host fs line setup).run fs (line.sources (workDir fs))
      (after, result.map some)

/-- The four ways in which the program ends: its start fails, it lists its plugins, its run fails, or
the run comes to its end. -/
theorem ending_cases (host : Host) (fs : FileStore) (line : CommandLine) :
    (∃ reason, setUp host fs line = .error reason ∧ ending host fs line = (fs, .error reason) ∧
      execute host fs line = halt line.reportFormat fs reason) ∨
    (∃ setup, setUp host fs line = .ok setup ∧ line.listPlugins = true ∧ ending host fs line = (fs, .ok none) ∧
      (execute host fs line).code = successCode ∧ (execute host fs line).files = fs) ∨
    (∃ setup after reason, setUp host fs line = .ok setup ∧ line.listPlugins = false ∧
      (pipeline host fs line setup).run fs (line.sources (workDir fs)) = (after, .error reason) ∧
      ending host fs line = (after, .error reason) ∧ execute host fs line = halt line.reportFormat after reason) ∨
    ∃ setup after report, setUp host fs line = .ok setup ∧ line.listPlugins = false ∧
      (pipeline host fs line setup).run fs (line.sources (workDir fs)) = (after, .ok report) ∧
      ending host fs line = (after, .ok (some report)) ∧ execute host fs line = conclude line after report := by
  cases started : setUp host fs line with
  | error reason => exact .inl ⟨reason, rfl, by rw [ending, started], by rw [execute, started]⟩
  | ok setup =>
    rw [ending, execute, started]
    dsimp only
    cases listed : line.listPlugins with
    | true => exact .inr (.inl ⟨setup, rfl, rfl, rfl, rfl, rfl⟩)
    | false =>
      refine .inr (.inr ?_)
      cases ran : (pipeline host fs line setup).run fs (line.sources (workDir fs)) with
      | mk after result =>
        have began := ran
        rw [pipeline] at began
        cases result with
        | error reason =>
          refine .inl ⟨setup, after, reason, rfl, rfl, ran, rfl, ?_⟩
          rw [generate, began]
          rfl
        | ok report =>
          refine .inr ⟨setup, after, report, rfl, rfl, ran, rfl, ?_⟩
          rw [generate, began]
          rfl

/-- The program refuses to start exactly if its start fails with an error. -/
theorem setUp_error_iff {after : FileStore} :
    (ending host fs line = (after, .error (.error error)) ∧ error.refusesStart = true) ↔
      setUp host fs line = .error (.error error) ∧ after = fs := by
  rcases ending_cases host fs line with ⟨reason, failed, ended, _⟩ | ⟨setup, started, _, ended, _⟩ |
    ⟨setup, middle, reason, started, _, ran, ended, _⟩ | ⟨setup, middle, report, started, _, _, ended, _⟩
  · rw [ended, failed]
    constructor
    · rintro ⟨⟨⟩, _⟩
      exact ⟨rfl, rfl⟩
    · rintro ⟨⟨⟩, unchanged⟩
      exact ⟨by rw [unchanged], setUp_refuses host fs line _ failed⟩
  · simp [ended, started]
  · rw [ended, started]
    constructor
    · rintro ⟨⟨⟩, refuses⟩
      rw [(Pipeline.run_kind ran).1] at refuses
      cases refuses
    · rintro ⟨⟨⟩, _⟩
  · simp [ended, started]

/-- The run is to have more jobs than a semaphore has room for. -/
def Overstaffed (host : Host) (fs : FileStore) (line : CommandLine) : Prop :=
  ∃ setup, setUp host fs line = .ok setup ∧ line.listPlugins = false ∧ 2 ^ 60 ≤ setup.config.runtime.jobs

/-- The program panics exactly if a load hook does, before a file is touched, or if there are too many
jobs, when the output directory is made. -/
theorem ending_panic_iff {after : FileStore} :
    (∃ message, ending host fs line = (after, .error (.panic message))) ↔
      StartPanics host fs line ∧ after = fs ∨
        Overstaffed host fs line ∧ fs.makeDirectory (line.targetDir (workDir fs)) = .ok after := by
  have ran (setup : Setup) : (∃ message, (pipeline host fs line setup).run fs (line.sources (workDir fs)) =
      (after, .error (.panic message))) ↔
        2 ^ 60 ≤ setup.config.runtime.jobs ∧ fs.makeDirectory (line.targetDir (workDir fs)) = .ok after := by
    have jobs : 2 ^ 60 ≤ max setup.config.runtime.jobs 1 ↔ 2 ^ 60 ≤ setup.config.runtime.jobs := by omega
    rw [← jobs]
    exact Pipeline.run_panic_iff
  rw [← setUp_panic_iff, Overstaffed, ending]
  generalize 2 ^ 60 = most at ran ⊢
  cases started : setUp host fs line with
  | error reason => simp [@eq_comm _ fs after, and_comm]
  | ok setup =>
    have own := ran setup
    dsimp only
    cases listed : line.listPlugins with
    | true => simp
    | false =>
      rw [if_neg Bool.false_ne_true]
      generalize (pipeline host fs line setup).run fs (line.sources (workDir fs)) = outcome at own ⊢
      obtain ⟨middle, result⟩ := outcome
      cases result with
      | ok report => simpa [Except.map] using own
      | error reason => simpa [Except.map] using own

/-- Two stores that differ at most in what the sources of a command line hold, none of which is a
settings file or a plugin. -/
structure OtherSources (line : CommandLine) (fs other : FileStore) : Prop where
  home : other.home = fs.home
  unread : ∀ source ∈ line.sources (workDir fs), ∀ path ∈ settingsFiles line (workDir fs) ++ pluginFiles line,
    fs.spotOf path ≠ fs.spotOf source
  kept : ∀ spot, other.lookup spot = fs.lookup spot ∨
    (∃ source ∈ line.sources (workDir fs), spot = fs.spotOf source) ∧
      fs.lookup spot ≠ some .directory ∧ other.lookup spot ≠ some .directory

theorem OtherSources.read_eq (others : OtherSources line fs other) {path : Path}
    (member : path ∈ settingsFiles line (workDir fs) ++ pluginFiles line) :
    (other.read path).toOption = (fs.read path).toOption := by
  refine FileStore.read_congr others.home (fun spot => ?_) ?_
  · rcases others.kept spot with same | ⟨_, free, stillFree⟩
    · rw [same]
    · exact iff_of_false stillFree free
  · rcases others.kept (fs.spotOf path) with same | ⟨⟨source, among, there⟩, _⟩
    · exact same
    · exact absurd there (others.unread source among path member)

theorem OtherSources.setUp_eq (others : OtherSources line fs other) (host : Host) :
    setUp host other line = setUp host fs line :=
  setUp_congr others.home (fun _ member => others.read_eq (List.mem_append_left _ member))
    fun _ member => others.read_eq (List.mem_append_right _ member)

/-- If the program refuses to start, it has done nothing, and it would do the same whatever the
sources hold. Otherwise the exit code tells how its run ended, with one more code for a panic. -/
theorem run_ending {args : List String} (parsed : CommandLine.parse args = .ok line) :
    (∀ after error, ending host fs line = (after, .error (.error error)) → error.refusesStart = true →
      run host fs args = abort line.reportFormat fs error ∧
      (run host fs args).code = 1 ∧ (run host fs args).files = fs ∧
      ∀ other, OtherSources line fs other → run host other args = { run host fs args with files := other }) ∧
    ((∀ after error, ending host fs line = (after, .error (.error error)) → error.refusesStart = false) →
      ((run host fs args).code = 1 ↔
        ∃ after error, ending host fs line = (after, .error (.error error)) ∧ error.isFatal = true) ∧
      ((run host fs args).code = 2 ↔ ∃ after report, ending host fs line = (after, .ok (some report)) ∧
        report.outcome = .completedWithWarnings ∧ line.failOnWarnings = true) ∧
      ((run host fs args).code = 101 ↔ StartPanics host fs line ∨
        Overstaffed host fs line ∧ ∃ after, fs.makeDirectory (line.targetDir (workDir fs)) = .ok after) ∧
      (¬ (run host fs args).code = 101 →
        (run host fs args).code = 0 ∨ (run host fs args).code = 1 ∨ (run host fs args).code = 2)) := by
  have executed (fs : FileStore) : run host fs args = execute host fs line := by rw [run, parsed]
  simp only [executed]
  constructor
  · intro after error ended refuses
    obtain ⟨failed, rfl⟩ := setUp_error_iff.mp ⟨ended, refuses⟩
    have aborted (fs : FileStore) (failed : setUp host fs line = .error (.error error)) :
        execute host fs line = abort line.reportFormat fs error := by
      rw [execute, failed]
      rfl
    rw [aborted after failed]
    refine ⟨rfl, rfl, rfl, fun other others => ?_⟩
    rw [aborted other (others.setUp_eq host ▸ failed)]
    rfl
  · intro runs
    have panics : (StartPanics host fs line ∨
        Overstaffed host fs line ∧ ∃ after, fs.makeDirectory (line.targetDir (workDir fs)) = .ok after) ↔
        ∃ after message, ending host fs line = (after, .error (.panic message)) := by
      simp only [ending_panic_iff, exists_or, exists_and_left, exists_eq, and_true]
    rw [panics]
    rcases ending_cases host fs line with ⟨reason, failed, ended, halted⟩ | ⟨setup, _, _, ended, code, _⟩ |
      ⟨setup, after, reason, _, _, ran, ended, halted⟩ | ⟨setup, after, report, _, _, _, ended, concluded⟩
    · cases reason with
      | error error =>
        have refuses := setUp_refuses host fs line _ failed
        rw [RefusesOrPanics, Refuses, runs fs error ended] at refuses
        cases refuses
      | panic message =>
        rw [ended, halted]
        simp [halt, crash, panicCode]
    · simp [ended, code, successCode]
    · cases reason with
      | error error =>
        rw [ended, halted]
        simp [halt, abort, fatalCode, (Pipeline.run_kind ran).2]
      | panic message =>
        rw [ended, halted]
        simp [halt, crash, panicCode]
    · rw [ended, concluded]
      simp only [conclude, successCode, warningsCode]
      split
      next warned => simp [warned]
      next quiet => simpa using quiet

/-- A host without settings and modules. -/
def bareHost : Host where
  environment := []
  openModule _ := .notAModule
  grammar _ := .mk ⟨0, "translation_unit", "", 0, 0, true, false, false, false⟩ []

def oneSource (content : ByteArray) : FileStore := ⟨["w"], [(["w", "a.hpp"], .file content)]⟩

def unknownPlugin : CommandLine :=
  { CommandLine.empty with plugins := ["builtin:nope"], inputs := [⟨"a.hpp"⟩] }

theorem oneSource_otherwise (content other : ByteArray) :
    OtherSources unknownPlugin (oneSource content) (oneSource other) := by
  have dir : workDir (oneSource content) = ⟨"/w"⟩ := rfl
  have sources : unknownPlugin.sources ⟨"/w"⟩ = [⟨"/w/a.hpp"⟩] := by decide
  have files : settingsFiles unknownPlugin ⟨"/w"⟩ ++ pluginFiles unknownPlugin =
      [⟨"/w/flextool.toml"⟩, ⟨"/w/.flextool/config.toml"⟩] := by decide
  have spots : (oneSource content).spotOf ⟨"/w/a.hpp"⟩ = ["w", "a.hpp"] ∧
      (oneSource content).spotOf ⟨"/w/flextool.toml"⟩ = ["w", "flextool.toml"] ∧
      (oneSource content).spotOf ⟨"/w/.flextool/config.toml"⟩ = ["w", ".flextool", "config.toml"] := ⟨rfl, rfl, rfl⟩
  refine ⟨rfl, ?_, fun other => ?_⟩
  · rw [dir, sources, files]
    simp [spots]
  · rw [dir, sources]
    by_cases there : other = ["w", "a.hpp"]
    · refine .inr ⟨⟨_, List.mem_singleton_self _, there.trans spots.1.symm⟩, ?_, ?_⟩ <;> rw [there] <;> nofun
    · left
      simp [oneSource, FileStore.lookup, Ne.symm there]

theorem run_ending_unknown_plugin :
    (run bareHost (oneSource ⟨#[]⟩) ["--load_plugin", "builtin:nope", "a.hpp"]).code = 1 ∧
      run bareHost (oneSource ⟨#[0]⟩) ["--load_plugin", "builtin:nope", "a.hpp"] =
        { run bareHost (oneSource ⟨#[]⟩) ["--load_plugin", "builtin:nope", "a.hpp"] with
          files := oneSource ⟨#[0]⟩ } := by
  have parsed : CommandLine.parse ["--load_plugin", "builtin:nope", "a.hpp"] = .ok unknownPlugin := by rfl
  have ended : ending bareHost (oneSource ⟨#[]⟩) unknownPlugin = (oneSource ⟨#[]⟩, .error (.error
      (.pluginLoad (LoadError.unknownBuiltin "nope" Plugin.builtinIds).message))) := by rfl
  obtain ⟨_, code, _, same⟩ := (run_ending parsed).1 _ _ ended rfl
  exact ⟨code, same _ (oneSource_otherwise _ _)⟩

/-- A number of jobs that the flag takes and no check refuses, for which there is no semaphore. -/
theorem panics_on_too_many_jobs :
    (run bareHost (oneSource ⟨#[]⟩) ["--jobs", "18446744073709551615", "a.hpp"]).code = 101 ∧
      (run bareHost (oneSource ⟨#[]⟩) ["--jobs", "1", "a.hpp"]).code = 0 := by
  decide +kernel

end Program

end MarkerGen
