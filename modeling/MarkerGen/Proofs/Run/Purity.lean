import MarkerGen.Proofs.Registry.Resolution
import MarkerGen.Run.Pipeline

/-! What a source file comes to depends on its text and on what is remarked about its includes. Other
files show in a unit only through these diagnostics, as includes that are found or not. -/
namespace MarkerGen

namespace SourceUnit

def bare (u : SourceUnit) : SourceUnit := { u with diagnostics := [] }

theorem bare_push {u v : SourceUnit} (same : u.bare = v.bare) (decl : Declaration) :
    (u.push decl).bare = (v.push decl).bare := by
  change u.bare.push decl = v.bare.push decl
  rw [same]

mutual
theorem bare_addEntry {present other : Path → Bool} {u v : SourceUnit} (same : u.bare = v.bare) (parent : Option Nat) :
    ∀ entry : Entry, (addEntry present parent u entry).bare = (addEntry other parent v entry).bare
  | .declared head members => by
    have size : u.bare.size = v.bare.size := congrArg size same
    change u.size = v.size at size
    rw [addEntry, addEntry, size]
    exact bare_addEntries (bare_push same _) _ members
  | .inclusion inclusion => by
    have silent (found : Option Diagnostic) (w : SourceUnit) : (found.elim w w.report).bare = w.bare := by
      cases found <;> rfl
    rw [addEntry, addEntry, silent, silent, same]

theorem bare_addEntries {present other : Path → Bool} {u v : SourceUnit} (same : u.bare = v.bare) (parent : Option Nat) :
    ∀ entries : List Entry, (addEntries present parent u entries).bare = (addEntries other parent v entries).bare
  | [] => same
  | entry :: rest => by
    rw [addEntries, addEntries]
    exact bare_addEntries (bare_addEntry same parent entry) parent rest
end

theorem bare_ofTree (r : Reading) (present other : Path → Bool) (root : Node) :
    (ofTree r present root).bare = (ofTree r other root).bare := bare_addEntries rfl _ _

mutual
theorem path_addEntry (present : Path → Bool) (parent : Option Nat) (u : SourceUnit) :
    ∀ entry : Entry, (addEntry present parent u entry).path = u.path
  | .declared head members => by
    rw [addEntry, path_addEntries]
    rfl
  | .inclusion inclusion => by
    rw [addEntry]
    cases inclusion.warning? present <;> rfl

theorem path_addEntries (present : Path → Bool) (parent : Option Nat) (u : SourceUnit) :
    ∀ entries : List Entry, (addEntries present parent u entries).path = u.path
  | [] => rfl
  | entry :: rest => by rw [addEntries, path_addEntries, path_addEntry]
end

end SourceUnit

/-- The reply depends on the marked declaration and on the declarations around it, and not on what
was remarked about the files that they include. -/
def Strategy.IgnoresDiagnostics (strategy : Strategy) : Prop :=
  ∀ r : Request, strategy { r with unit := r.unit.bare } = strategy r

def Registry.IgnoresDiagnostics (r : Registry) : Prop :=
  ∀ claim ∈ r.claims, Strategy.IgnoresDiagnostics claim.capability.strategy

namespace Generator

variable {g : Generator} (ignores : g.registry.IgnoresDiagnostics)
include ignores

theorem step_bare (u : SourceUnit) (m : Match) : g.step u.bare m = g.step u m := by
  unfold step
  split
  next claim resolved =>
    have claimed : claim ∈ g.registry.claims := Registry.mem_of_resolveFor resolved
    exact congrArg (fun reply => Step.called ⟨claim.plugin, reply⟩)
      (ignores claim claimed ⟨u, m.declared, m.marker, claim.plugin.id⟩)
  · rfl
  · rfl

theorem handle_bare (u : SourceUnit) (progress : Progress) (found : List Match) :
    g.handle u.bare progress found = g.handle u progress found := by
  induction found generalizing progress with
  | nil => rfl
  | cons m rest ih =>
    rw [handle, handle, step_bare ignores]
    simp only [ih]

theorem trace_bare (u : SourceUnit) : g.trace u.bare = g.trace u := by
  unfold trace
  have matches_ : Scan.matchesOf g.lead u.bare = Scan.matchesOf g.lead u := rfl
  rw [matches_, handle_bare ignores]
  rfl

end Generator

theorem SourceUnit.eq_of_bare {u v : SourceUnit} (bare : u.bare = v.bare) (remarks : u.diagnostics = v.diagnostics) :
    u = v := by
  calc
    u = { u.bare with diagnostics := u.diagnostics } := rfl
    _ = { v.bare with diagnostics := v.diagnostics } := by rw [bare, remarks]
    _ = v := rfl

namespace FileStore

theorem toOption_read {fs other : FileStore} {p : Path}
    (reads : ∀ content, fs.read p = .ok content ↔ other.read p = .ok content) :
    (fs.read p).toOption = (other.read p).toOption := by
  cases read : fs.read p with
  | ok content => rw [(reads content).mp read]
  | error error =>
    cases otherRead : other.read p with
    | error _ => rfl
    | ok content =>
      rw [(reads content).mpr otherRead] at read
      cases read

theorem readText_eq (fs : FileStore) (p : Path) :
    (fs.readText p).toOption = (fs.read p).toOption.bind String.fromUTF8? := by
  unfold readText
  cases fs.read p with
  | error error => rfl
  | ok content =>
    simp only [bind, Except.bind]
    cases text : String.fromUTF8? content <;> exact text.symm

end FileStore

namespace Clock

theorem now_spends {calls : List Call} (safe : ∀ call ∈ calls, call.plugin.threadSafe = true) :
    ∃ spent, ∀ c : Clock, (calls.foldl spend c).now = c.now + spent := by
  induction calls with
  | nil => exact ⟨0, fun _ => rfl⟩
  | cons call rest ih =>
    obtain ⟨first, others⟩ := List.forall_mem_cons.mp safe
    obtain ⟨spent, later⟩ := ih others
    refine ⟨call.reply.delayMs + spent, fun c => ?_⟩
    have now : (c.spend call).now = c.now + call.reply.delayMs := by rw [spend, freeAt, if_pos first]
    rw [List.foldl_cons, later, now, Nat.add_assoc]

theorem watch_eq (c : Clock) (limit : Nat) (calls : List Call) :
    (c.watch limit calls).2 = decide ((calls.foldl spend c).now < c.now + limit) := by
  unfold watch
  dsimp only
  split
  next within => exact (decide_eq_true within).symm
  next past => exact (decide_eq_false past).symm

/-- Calls that wait for no other file keep within a limit or not, whenever they are made. -/
theorem watch_safe (c later : Clock) (limit : Nat) {calls : List Call}
    (safe : ∀ call ∈ calls, call.plugin.threadSafe = true) :
    (later.watch limit calls).2 = (c.watch limit calls).2 := by
  obtain ⟨spent, now⟩ := now_spends safe
  rw [watch_eq, watch_eq, now, now]
  simp only [Nat.add_lt_add_iff_left]

end Clock

def Registry.ThreadSafe (r : Registry) : Prop := ∀ claim ∈ r.claims, claim.plugin.threadSafe = true

namespace Generator

theorem step_safe {g : Generator} (safe : g.registry.ThreadSafe) {u : SourceUnit} {m : Match} {call : Call}
    (called : g.step u m = .called call) : call.plugin.threadSafe = true := by
  unfold step at called
  split at called
  next claim resolved =>
    cases called
    exact safe claim (Registry.mem_of_resolveFor resolved)
  · split at called <;> cases called
  · cases called

theorem mem_handle_cons {g : Generator} {u : SourceUnit} {progress : Progress} {m : Match} {rest : List Match}
    {call : Call} (made : call ∈ (g.handle u progress (m :: rest)).1) :
    g.step u m = .called call ∨ ∃ next, call ∈ (g.handle u next rest).1 := by
  rw [handle] at made
  dsimp only at made
  cases stepped : g.step u m with
  | skipped => exact .inr ⟨_, by simpa only [stepped, advance, List.nil_append] using made⟩
  | unsupported error => exact .inr ⟨_, by simpa only [stepped, advance, List.nil_append] using made⟩
  | unknown error =>
    simp only [stepped, advance, List.not_mem_nil] at made
  | called first =>
    rw [stepped] at made
    cases advanced : advance m progress (.called first) with
    | error failure =>
      rw [advanced] at made
      exact .inl (congrArg Step.called (List.mem_singleton.mp made).symm)
    | ok next =>
      rw [advanced] at made
      rcases List.mem_cons.mp made with same | later
      · exact .inl (congrArg Step.called same.symm)
      · exact .inr ⟨next, later⟩

theorem handle_safe {g : Generator} (safe : g.registry.ThreadSafe) (u : SourceUnit) (progress : Progress)
    (found : List Match) : ∀ call ∈ (g.handle u progress found).1, call.plugin.threadSafe = true := by
  induction found generalizing progress with
  | nil => exact List.forall_mem_nil _
  | cons m rest ih =>
    intro call made
    rcases mem_handle_cons made with called | ⟨next, later⟩
    · exact step_safe safe called
    · exact ih next call later

end Generator

namespace Frontend

/-- What a file is parsed to depends on its content and on which other files are there. -/
theorem parseFile_eq (f : Frontend) (fs : FileStore) (input : Path) : (f.parseFile fs input).toOption =
    ((fs.read input).toOption.bind String.fromUTF8?).bind fun text =>
      (Reading.parse ⟨text, input, f.includePaths, f.commentMarkers⟩ fs.present (f.grammar text)).toOption := by
  rw [← FileStore.readText_eq, parseFile]
  cases fs.readText input <;> rfl

/-- A file is parsed alike in stores that give the same content for it. -/
theorem parseFile_alike (f : Frontend) {fs other : FileStore} {input : Path}
    (reads : ∀ content, fs.read input = .ok content ↔ other.read input = .ok content) :
    (f.parseFile fs input).toOption.map SourceUnit.bare = (f.parseFile other input).toOption.map SourceUnit.bare := by
  rw [parseFile_eq, parseFile_eq, FileStore.toOption_read reads]
  cases (other.read input).toOption.bind String.fromUTF8? with
  | none => rfl
  | some text =>
    dsimp only [Option.bind_some, Reading.parse]
    split
    · rfl
    · exact congrArg some (SourceUnit.bare_ofTree _ _ _ _)

theorem parseFile_steady (f : Frontend) {fs other : FileStore} {input : Path} (read : other.read input = fs.read input) :
    (∃ failure, f.parseFile other input = .error failure ∧ f.parseFile fs input = .error failure) ∨
      ∃ u v, f.parseFile other input = .ok u ∧ f.parseFile fs input = .ok v ∧ u.bare = v.bare := by
  have texts : other.readText input = fs.readText input := by rw [FileStore.readText, read, FileStore.readText]
  unfold parseFile
  rw [texts]
  cases fs.readText input with
  | error error => exact .inl ⟨_, rfl, rfl⟩
  | ok text =>
    dsimp only [parseText, Reading.parse]
    split
    · exact .inl ⟨_, rfl, rfl⟩
    · exact .inr ⟨_, _, rfl, rfl, SourceUnit.bare_ofTree _ _ _ _⟩

theorem path_parseFile {f : Frontend} {fs : FileStore} {input : Path} {u : SourceUnit}
    (parsed : f.parseFile fs input = .ok u) : u.path = input := by
  unfold parseFile at parsed
  split at parsed
  · cases parsed
  · unfold parseText Reading.parse at parsed
    dsimp only at parsed
    split at parsed
    · cases parsed
    · cases parsed
      exact SourceUnit.path_addEntries _ _ _ _

end Frontend

namespace Pipeline

def Prepared.Alike (a b : Prepared) : Prop := a = b ∨ ∃ first second, a = .parseFailed first ∧ b = .parseFailed second

/-- What is remarked about the includes of a source is the same in both stores. -/
def SameRemarks (p : Pipeline) (fs other : FileStore) (input : Path) : Prop :=
  ∀ u v, p.frontend.parseFile fs input = .ok u → p.frontend.parseFile other input = .ok v → u.diagnostics = v.diagnostics

theorem prepare_alike {p : Pipeline} {fs other : FileStore} {input : Path}
    (remarks : p.registry.IgnoresDiagnostics ∨ p.SameRemarks fs other input)
    (reads : ∀ content, fs.read input = .ok content ↔ other.read input = .ok content) (clock : Clock) :
    (p.prepare fs clock input).1 = (p.prepare other clock input).1 ∧
      (p.prepare fs clock input).2.Alike (p.prepare other clock input).2 := by
  have alike := p.frontend.parseFile_alike reads
  unfold prepare
  cases parsed : p.frontend.parseFile fs input with
  | ok u =>
    cases otherParsed : p.frontend.parseFile other input with
    | ok v =>
      rw [parsed, otherParsed] at alike
      have bare : u.bare = v.bare := Option.some.inj alike
      have traces : p.generator.trace u = p.generator.trace v := by
        rcases remarks with ignores | same
        · rw [← Generator.trace_bare ignores u, bare, Generator.trace_bare ignores v]
        · rw [SourceUnit.eq_of_bare bare (same u v parsed otherParsed)]
      dsimp only
      rw [traces]
      exact ⟨rfl, .inl rfl⟩
    | error failure =>
      rw [parsed, otherParsed] at alike
      cases alike
  | error failure =>
    cases otherParsed : p.frontend.parseFile other input with
    | ok v =>
      rw [parsed, otherParsed] at alike
      cases alike
    | error otherFailure =>
      refine ⟨rfl, ?_⟩
      dsimp only
      split
      · exact .inr ⟨_, _, rfl, rfl⟩
      · exact .inl rfl

/-- With strategies that can be called at any time, and look at no remarks, a file comes to the same
wherever it has the same content. -/
theorem prepare_steady {p : Pipeline} {fs other : FileStore} {input : Path}
    (ignores : p.registry.IgnoresDiagnostics) (safe : p.registry.ThreadSafe) (read : other.read input = fs.read input) (clock later : Clock) :
    (p.prepare other later input).2 = (p.prepare fs clock input).2 := by
  unfold prepare
  rcases p.frontend.parseFile_steady read with ⟨failure, here, there⟩ | ⟨u, v, here, there, bare⟩
  · rw [here, there]
    dsimp only
    rw [Clock.watch_safe clock later _ (List.forall_mem_nil _)]
  · have traces : p.generator.trace u = p.generator.trace v := by
      rw [← Generator.trace_bare ignores u, bare, Generator.trace_bare ignores v]
    have calls : ∀ call ∈ (p.generator.trace v).1, call.plugin.threadSafe = true :=
      Generator.handle_safe safe v .start (Scan.matchesOf p.generator.lead v)
    rw [here, there]
    dsimp only
    rw [traces, Clock.watch_safe clock later _ calls]

end Pipeline

end MarkerGen
