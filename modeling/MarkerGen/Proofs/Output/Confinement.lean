import MarkerGen.Output.Layout
import MarkerGen.Proofs.Chars.Utf8
import MarkerGen.Proofs.Path.Components
import MarkerGen.Settings.Config

/-! When outputs stay below the output directory. A file name that a strategy asks for is checked
and always does. A derived target does exactly when the directory part of its source and the text
made of source, tag and extension do; neither is checked. -/
namespace MarkerGen.Path

/-- A component that does not lead out of the directory it is seen from. -/
def Stays (c : Component) : Prop := c ≠ .root ∧ c ≠ .up

theorem isConfined_iff_stays {p : Path} : p.isConfined = true ↔ ∀ c ∈ p.components, Stays c := by
  simp [isConfined, Stays]

theorem stays_of_inner {parts : List (List Char)} (level : ['.', '.'] ∉ parts) : ∀ c ∈ inner parts, Stays c := by
  intro c member
  obtain ⟨part, inside, component⟩ := List.mem_filterMap.mp member
  constructor
  · rintro rfl
    exact component?_ne_root false part component
  · rintro rfl
    exact level (component?_up.mp component ▸ inside)

theorem join_stays {p : Path} (confined : p.isConfined = true) (dir : Path) :
    ∃ below, (dir.join p).components = dir.components ++ below ∧ ∀ c ∈ below, Stays c := by
  obtain ⟨relative, level⟩ := isConfined_iff.mp confined
  by_cases empty : dir.text.toList = []
  · have none : dir.components = [] := by
      have text : dir = ⟨""⟩ := by
        cases dir
        simpa using empty
      rw [text]
      rfl
    exact ⟨p.components, by rw [join_of_empty empty, none]; rfl, isConfined_iff_stays.mp confined⟩
  · exact ⟨inner p.parts, components_join relative empty, stays_of_inner level⟩

end MarkerGen.Path

namespace MarkerGen.Layout

theorem explicitTarget_confined {name : String} {p : Path} (ok : explicitTarget name = .ok p) :
    p.isConfined = true := by
  unfold explicitTarget at ok
  dsimp only at ok
  split at ok
  · split at ok
    · cases ok
    · cases ok
      rw [Path.isConfined_iff_stays, Path.components_ofNames]
      · intro c member
        obtain ⟨text, _, rfl⟩ := List.mem_map.mp member
        simp [Path.Stays]
      · intro text member
        obtain ⟨component, inside, named⟩ := List.mem_filterMap.mp member
        split at named
        · cases named
          exact Path.proper_of_name_mem inside
        · cases named
  · cases ok

/-- What a derived target is named after: the source file or the declaration. -/
def stem (l : Layout) (input : Path) (s : Section) : String :=
  match l.mode with
  | .perFile => (l.sourcePath input).fileName?.getD ""
  | .perDeclaration => nameComponent s.declaration

/-- The text of a derived target below the directory of its source. -/
def leaf (l : Layout) (input : Path) (s : Section) : Path :=
  ⟨l.stem input s ++ ("." ++ s.capability.text ++ "." ++ l.extensionOf s.code)⟩

theorem nameComponent_free (name : String) : ∀ c ∈ (nameComponent name).toList, (c == '/') = false := by
  intro c member
  rw [nameComponent, String.toList_ofList] at member
  obtain ⟨d, _, rfl⟩ := List.mem_map.mp member
  split
  next plain =>
    by_contra slash
    rw [Bool.not_eq_false, beq_iff_eq] at slash
    rw [slash] at plain
    exact absurd plain (by decide)
  next => rfl

theorem fileName_free (p : Path) : ∀ c ∈ (p.fileName?.getD "").toList, (c == '/') = false := by
  unfold Path.fileName?
  cases last : p.components.getLast? with
  | none => simp
  | some component =>
    cases component with
    | name text => exact (Path.proper_of_name_mem (List.mem_of_getLast? last)).2.2.2
    | root => simp
    | here => simp
    | up => simp

theorem stem_free (l : Layout) (input : Path) (s : Section) : ∀ c ∈ (l.stem input s).toList, (c == '/') = false := by
  unfold stem
  cases l.mode with
  | perFile => exact fileName_free _
  | perDeclaration => exact nameComponent_free _

theorem relative_of_dotted {front : String} (free : ∀ c ∈ front.toList, (c == '/') = false) (back : String) :
    (Path.mk (front ++ ("." ++ back))).isAbsolute = false := by
  rw [Path.isAbsolute, String.toList_append, String.toList_append]
  cases chars : front.toList with
  | nil => rfl
  | cons c rest =>
    have head := free c (by rw [chars]; exact List.mem_cons_self)
    simpa using head

theorem directory_level {name : String} (free : ∀ c ∈ name.toList, (c == '/') = false) :
    ['.', '.'] ∉ (Path.mk (name ++ ".d")).parts := by
  have alone : (Path.mk (name ++ ".d")).parts = [name.toList ++ ['.', 'd']] := by
    rw [Path.parts, String.toList_append]
    apply Chars.splitAt_of_free
    intro c member
    rcases List.mem_append.mp member with inName | inTail
    · exact free c inName
    · have either : c = '.' ∨ c = 'd' := by simpa using inTail
      rcases either with rfl | rfl <;> rfl
  rw [alone, List.mem_singleton]
  intro same
  have last := congrArg List.getLast? same
  simp at last

theorem derivedTarget_confined_iff (l : Layout) (input : Path) (s : Section) :
    (l.derivedTarget input s).isConfined = true ↔
      (∀ c ∈ (l.sourcePath input).components.dropLast, Path.Stays c) ∧ ['.', '.'] ∉ (l.leaf input s).parts := by
  have relative : (l.leaf input s).isAbsolute = false := by
    rw [leaf, String.append_assoc, String.append_assoc]
    exact relative_of_dotted (stem_free l input s) _
  rw [← Path.components_parent, ← Path.isConfined_iff_stays]
  rw [derivedTarget, derivedIn, Utf8.lossy_encode]
  cases mode : l.mode with
  | perFile =>
    have named : l.leaf input s = ⟨(l.sourcePath input).fileName?.getD "" ++
        ("." ++ s.capability.text ++ "." ++ l.extensionOf s.code)⟩ := by
      rw [leaf, stem, mode]
    rw [named] at relative ⊢
    exact Path.isConfined_join relative
  | perDeclaration =>
    have named : l.leaf input s = ⟨nameComponent s.declaration ++
        ("." ++ s.capability.text ++ "." ++ l.extensionOf s.code)⟩ := by
      rw [leaf, stem, mode]
    have free := fileName_free (l.sourcePath input)
    have dotted : (Path.mk ((l.sourcePath input).fileName?.getD "" ++ ".d")).isAbsolute = false :=
      relative_of_dotted free "d"
    rw [named] at relative ⊢
    dsimp only
    rw [Path.isConfined_join relative, Path.isConfined_join dotted]
    simp [directory_level free]

/-- A target is relative and leads nowhere up exactly if it was asked for by name, or the directory
part of its source and its own text lead nowhere up. It then stays below every output directory. -/
theorem target_confined_iff (l : Layout) (input p : Path) (s : Section) (placed : l.target input s = .ok p) :
    (p.isConfined = true ↔ (s.code.fileName = none →
      (∀ c ∈ (l.sourcePath input).components.dropLast, Path.Stays c) ∧ ['.', '.'] ∉ (l.leaf input s).parts)) ∧
    (p.isConfined = true → ∀ outDir : Path,
      ∃ below, (outDir.join p).components = outDir.components ++ below ∧ ∀ c ∈ below, Path.Stays c) := by
  refine ⟨?_, fun confined outDir => Path.join_stays confined outDir⟩
  unfold target at placed
  cases asked : s.code.fileName with
  | some name =>
    rw [asked] at placed
    simp [explicitTarget_confined placed]
  | none =>
    rw [asked] at placed
    cases placed
    rw [derivedTarget_confined_iff]
    simp

theorem target_confined_palette :
    let l := Layout.make .perFile (some ⟨"/src"⟩) ".hpp"
    let s : Section := ⟨"p", "1.0.0", ⟨"enum-to-string"⟩, "colors::Color", ⟨⟨"/src/colors/palette.hpp"⟩, 3, 1⟩, .ofText "x"⟩
    l.target ⟨"/src/colors/palette.hpp"⟩ s = .ok ⟨"colors/palette.hpp.enum-to-string.hpp"⟩ ∧
      (Path.mk "colors/palette.hpp.enum-to-string.hpp").isConfined = true := by
  intro l s
  have placed : l.target ⟨"/src/colors/palette.hpp"⟩ s = .ok ⟨"colors/palette.hpp.enum-to-string.hpp"⟩ := by decide +kernel
  refine ⟨placed, (target_confined_iff l _ _ s placed).1.mpr fun _ => ⟨?_, by decide +kernel⟩⟩
  have only : (l.sourcePath ⟨"/src/colors/palette.hpp"⟩).components.dropLast = [.name "colors"] := by decide +kernel
  rw [only]
  simp [Path.Stays]

/-- With the default configuration, an extension that a strategy asks for leads out of the output
directory, and so does a source that lies beside the input directory. -/
theorem derived_target_leads_out :
    Config.default.validate = .ok () ∧
    (Layout.make .perFile none Config.default.output.defaultExtension).target ⟨"a.hpp"⟩
      ⟨"p", "1.0.0", ⟨"t"⟩, "A", ⟨⟨"a.hpp"⟩, 1, 1⟩, ⟨"x", none, some "x/../../b"⟩⟩ = .ok ⟨"a.hpp.t.x/../../b"⟩ ∧
    (Path.mk "a.hpp.t.x/../../b").isConfined = false ∧
    (Layout.make .perFile (some ⟨"/in"⟩) Config.default.output.defaultExtension).target ⟨"/in/../etc/a.hpp"⟩
      ⟨"p", "1.0.0", ⟨"t"⟩, "A", ⟨⟨"/in/../etc/a.hpp"⟩, 1, 1⟩, .ofText "x"⟩ = .ok ⟨"../etc/a.hpp.t.hpp"⟩ ∧
    (Path.mk "../etc/a.hpp.t.hpp").isConfined = false := by
  decide +kernel

end MarkerGen.Layout
