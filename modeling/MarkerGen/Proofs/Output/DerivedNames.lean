import Mathlib.Data.List.Induction
import MarkerGen.Proofs.Output.Confinement
import MarkerGen.Proofs.Output.Stale
import MarkerGen.Proofs.Output.Writing

/-! Files that are named after their source. Such a name is the name of the source, a tag and an
extension with dots between them, and where the tag has no dot of its own the source can be read
off. So blocks of different sources never share a file. -/
namespace MarkerGen

theorem dotted_inj {a b s t : List Char} (first : '.' ∉ s) (second : '.' ∉ t) (same : a ++ '.' :: s = b ++ '.' :: t) :
    a = b ∧ s = t := by
  rcases List.append_eq_append_iff.mp same with ⟨middle, rfl, tail⟩ | ⟨middle, rfl, tail⟩
  · cases middle with
    | nil =>
      rw [List.nil_append, List.cons.injEq] at tail
      exact ⟨(List.append_nil a).symm, tail.2⟩
    | cons c middle =>
      obtain ⟨rfl, rfl⟩ := List.cons.inj tail
      exact absurd (by simp) first
  · cases middle with
    | nil =>
      rw [List.nil_append, List.cons.injEq] at tail
      exact ⟨List.append_nil b, tail.2.symm⟩
    | cons c middle =>
      obtain ⟨rfl, rfl⟩ := List.cons.inj tail
      exact absurd (by simp) second

namespace Path

theorem component?_inj {a b : List Char} {c : Component} (first : component? false a = some c)
    (second : component? false b = some c) : a = b := by
  cases c with
  | root => exact absurd first (component?_ne_root false a)
  | here =>
    unfold component? at first
    split at first
    · cases first
    · split at first
      · cases first
      · split at first <;> cases first
  | up => rw [component?_up.mp first, component?_up.mp second]
  | name text =>
    have texts := (component?_name first).1.symm.trans (component?_name second).1
    exact String.ofList_injective texts

theorem components_join_piece (base : Path) {piece : String} {c : Component}
    (free : ∀ d ∈ piece.toList, (d == '/') = false) (stands : component? false piece.toList = some c) :
    (base.join ⟨piece⟩).components = base.components ++ [c] := by
  have alone : (Path.mk piece).parts = [piece.toList] := Chars.splitAt_of_free free
  have relative : (Path.mk piece).isAbsolute = false := by
    cases chars : piece.toList with
    | nil => simp [isAbsolute, chars]
    | cons d rest => simpa [isAbsolute, chars] using free d (by simp [chars])
  by_cases empty : base.text.toList = []
  · have none : base.components = [] := by
      rw [show base = ⟨""⟩ from congrArg Path.mk (by simpa using empty)]
      rfl
    rw [join_of_empty empty, components_eq alone, relative, none, component?_inner stands]
    rfl
  · rw [components_join relative empty, alone, inner, List.filterMap_cons, stands]
    rfl

theorem components_of_fileName {p : Path} {name : String} (named : p.fileName? = some name) :
    p.components = (p.parent?.getD ⟨""⟩).components ++ [.name name] := by
  have last : p.components.getLast? = some (.name name) := by
    unfold fileName? at named
    split at named
    next text last =>
      cases named
      exact last
    next => cases named
  rw [components_parent]
  exact (List.dropLast_append_getLast? _ last).symm

end Path

namespace Layout

/-- A block whose file is named after its source, and whose tag and extension can be told apart
in the name. -/
structure Derives (l : Layout) (extension : String) (s : Section) : Prop where
  unasked : s.code.fileName = none
  tag : ∀ c ∈ s.capability.text.toList, c ≠ '.' ∧ c ≠ '/'
  extension : l.extensionOf s.code = extension

def directory (l : Layout) (input : Path) : Path :=
  let parent := (l.sourcePath input).parent?.getD ⟨""⟩
  match l.mode with
  | .perFile => parent
  | .perDeclaration => parent.join ⟨(l.sourcePath input).fileName?.getD "" ++ ".d"⟩

theorem derivedTarget_eq (l : Layout) (input : Path) (s : Section) :
    l.derivedTarget input s = (l.directory input).join (l.leaf input s) := by
  rw [derivedTarget, derivedIn, Utf8.lossy_encode, directory, leaf, stem]
  cases l.mode <;> rfl

theorem target_of_derives {l : Layout} {extension : String} {s : Section} (derives : l.Derives extension s)
    (input : Path) : l.target input s = .ok (l.derivedTarget input s) := by
  rw [target, derives.unasked]

section
variable {l : Layout} {extension : String} {s t : Section} {a b : Path}

theorem toList_leaf (derives : l.Derives extension s) (input : Path) : (l.leaf input s).text.toList =
    (l.stem input s).toList ++ '.' :: (s.capability.text.toList ++ '.' :: extension.toList) := by
  rw [leaf, derives.extension]
  simp

theorem leaf_free (derives : l.Derives extension s) (flat : '/' ∉ extension.toList) (input : Path) :
    ∀ c ∈ (l.leaf input s).text.toList, (c == '/') = false := by
  intro c member
  rw [toList_leaf derives, List.mem_append, List.mem_cons, List.mem_append, List.mem_cons] at member
  rcases member with inStem | rfl | inTag | rfl | inExtension
  · exact stem_free l input s c inStem
  · rfl
  · simpa using (derives.tag c inTag).2
  · rfl
  · exact beq_eq_false_iff_ne.mpr fun slash => flat (slash ▸ inExtension)

theorem leaf_stands (derives : l.Derives extension s) (input : Path) :
    ∃ c, Path.component? false (l.leaf input s).text.toList = some c := by
  have long : 2 ≤ (l.leaf input s).text.toList.length := by
    rw [toList_leaf derives]
    simp
    omega
  generalize (l.leaf input s).text.toList = chars at long
  unfold Path.component?
  rw [if_neg (by rintro rfl; simp at long), if_neg (by rintro rfl; simp at long)]
  split
  · exact ⟨_, rfl⟩
  · exact ⟨_, rfl⟩

theorem components_derivedTarget (derives : l.Derives extension s) (flat : '/' ∉ extension.toList) (input : Path) :
    ∃ c, Path.component? false (l.leaf input s).text.toList = some c ∧
      (l.derivedTarget input s).components = (l.directory input).components ++ [c] := by
  obtain ⟨c, stands⟩ := leaf_stands derives input
  refine ⟨c, stands, ?_⟩
  rw [derivedTarget_eq]
  exact Path.components_join_piece _ (leaf_free derives flat input) stands

/-- Blocks share a file if they go to one directory and to one name in it. -/
theorem same_derivedTarget_iff (first : l.Derives extension s) (second : l.Derives extension t)
    (flat : '/' ∉ extension.toList) (a b : Path) :
    (l.derivedTarget a s).same (l.derivedTarget b t) = true ↔
      (l.directory a).components = (l.directory b).components ∧
        (l.stem a s).toList ++ '.' :: s.capability.text.toList =
          (l.stem b t).toList ++ '.' :: t.capability.text.toList := by
  obtain ⟨c, standsC, componentsC⟩ := components_derivedTarget first flat a
  obtain ⟨d, standsD, componentsD⟩ := components_derivedTarget second flat b
  have leaves : (l.leaf a s).text.toList = (l.leaf b t).text.toList ↔
      (l.stem a s).toList ++ '.' :: s.capability.text.toList =
        (l.stem b t).toList ++ '.' :: t.capability.text.toList := by
    rw [toList_leaf first, toList_leaf second, ← List.cons_append, ← List.cons_append, ← List.append_assoc,
      ← List.append_assoc, List.append_left_inj]
  rw [Path.same_iff, componentsC, componentsD, ← leaves]
  constructor
  · intro one
    obtain ⟨directories, last⟩ := List.append_inj' one rfl
    obtain ⟨rfl⟩ := List.singleton_inj.mp last
    exact ⟨directories, Path.component?_inj standsC standsD⟩
  · rintro ⟨directories, names⟩
    rw [names, standsD] at standsC
    rw [directories, Option.some.inj standsC]

theorem directory_perFile (mode : l.mode = .perFile) (input : Path) :
    l.directory input = (l.sourcePath input).parent?.getD ⟨""⟩ := by
  rw [directory, mode]

theorem stem_perFile (mode : l.mode = .perFile) {input : Path} {name : String}
    (named : (l.sourcePath input).fileName? = some name) (s : Section) : l.stem input s = name := by
  rw [stem, mode, named]
  rfl

theorem components_directory (mode : l.mode = .perDeclaration) {input : Path} {name : String}
    (named : (l.sourcePath input).fileName? = some name) : (l.directory input).components =
      ((l.sourcePath input).parent?.getD ⟨""⟩).components ++ [.name (name ++ ".d")] := by
  have free : ∀ c ∈ (name ++ ".d").toList, (c == '/') = false := by
    intro c member
    rw [String.toList_append] at member
    rcases List.mem_append.mp member with inName | inTail
    · exact fileName_free (l.sourcePath input) c (by rwa [named])
    · have either : c = '.' ∨ c = 'd' := by simpa using inTail
      rcases either with rfl | rfl <;> rfl
  have stands : Path.component? false (name ++ ".d").toList = some (.name (name ++ ".d")) := by
    have apart (other : List Char) (ending : other.getLast? ≠ some 'd') : (name ++ ".d").toList ≠ other := by
      rintro rfl
      simp at ending
    rw [Path.component?, if_neg (apart _ (by simp)), if_neg (apart _ (by simp)), if_neg (apart _ (by simp)),
      String.ofList_toList]
  rw [directory, mode, named]
  exact Path.components_join_piece _ free stands

/-- The source of a block can be read off its file. -/
theorem source_of_derivedTarget (first : l.Derives extension s) (second : l.Derives extension t)
    (flat : '/' ∉ extension.toList) {nameA nameB : String} (namedA : (l.sourcePath a).fileName? = some nameA)
    (namedB : (l.sourcePath b).fileName? = some nameB)
    (shared : (l.derivedTarget a s).same (l.derivedTarget b t) = true) :
    (l.sourcePath a).components = (l.sourcePath b).components := by
  obtain ⟨directories, names⟩ := (same_derivedTarget_iff first second flat a b).mp shared
  rw [Path.components_of_fileName namedA, Path.components_of_fileName namedB]
  cases mode : l.mode with
  | perFile =>
    rw [directory_perFile mode, directory_perFile mode] at directories
    rw [stem_perFile mode namedA, stem_perFile mode namedB] at names
    have noDot {s : Section} (derives : l.Derives extension s) : '.' ∉ s.capability.text.toList :=
      fun member => (derives.tag _ member).1 rfl
    rw [directories, String.toList_inj.mp (dotted_inj (noDot first) (noDot second) names).1]
  | perDeclaration =>
    rw [components_directory mode namedA, components_directory mode namedB] at directories
    obtain ⟨parents, last⟩ := List.append_inj' directories rfl
    have dotted : nameA.toList ++ ['.', 'd'] = nameB.toList ++ ['.', 'd'] := by
      simpa [← String.toList_inj] using last
    rw [parents, String.toList_inj.mp (List.append_cancel_right dotted)]

/-- In one mode, blocks of one source share a file exactly if they have one tag. -/
theorem same_tag_iff (mode : l.mode = .perFile) (first : l.Derives extension s) (second : l.Derives extension t)
    (flat : '/' ∉ extension.toList) {name : String} (named : (l.sourcePath a).fileName? = some name) :
    (l.derivedTarget a s).same (l.derivedTarget a t) = true ↔ s.capability = t.capability := by
  rw [same_derivedTarget_iff first second flat, stem_perFile mode named, stem_perFile mode named]
  constructor
  · rintro ⟨_, names⟩
    have tags := (List.cons.inj (List.append_cancel_left names)).2
    exact congrArg Tag.mk (String.toList_inj.mp tags)
  · intro tags
    rw [tags]
    exact ⟨rfl, rfl⟩

end

/-! ### The files of one source -/

/-- Files in the making, none of which was asked for by name and no two of which are one, for the
given targets. -/
structure Gathered (targets : List Path) (drafts : List Draft) : Prop where
  unasked : ∀ draft ∈ drafts, draft.explicit = false
  apart : Writer.Apart (drafts.map (·.output))
  among : ∀ draft ∈ drafts, draft.output ∈ targets

/-- A block is added to a file that is there, or there is none. -/
theorem extend?_cases {drafts : List Draft} (unasked : ∀ draft ∈ drafts, draft.explicit = false) (output : Path)
    (block : String) :
    (∃ next, extend? output block drafts = some next ∧ next.map (·.output) = drafts.map (·.output) ∧
        ∀ draft ∈ next, draft.explicit = false) ∨
      extend? output block drafts = none ∧ ∀ draft ∈ drafts, draft.output.same output = false := by
  induction drafts with
  | nil => exact .inr ⟨rfl, by simp⟩
  | cons draft rest ih =>
    rw [List.forall_mem_cons] at unasked
    rw [extend?, unasked.1]
    cases same : draft.output.same output with
    | true => exact .inl ⟨_, rfl, rfl, List.forall_mem_cons.mpr ⟨rfl, unasked.2⟩⟩
    | false =>
      rcases ih unasked.2 with ⟨next, found, outputs, plain⟩ | ⟨missing, others⟩
      · refine .inl ⟨draft :: next, by simp [found], ?_, List.forall_mem_cons.mpr ⟨unasked.1, plain⟩⟩
        rw [List.map_cons, List.map_cons, outputs]
      · exact .inr ⟨by simp [missing], List.forall_mem_cons.mpr ⟨same, others⟩⟩

theorem Gathered.addSection {targets : List Path} {drafts : List Draft} (gathered : Gathered targets drafts)
    {s : Section} (unasked : s.code.fileName = none) (output : Path) :
    Gathered (targets ++ [output]) (Layout.addSection drafts (s, output)) := by
  have plain : s.code.fileName.isSome = false := by rw [unasked]; rfl
  unfold Layout.addSection
  dsimp only
  rw [plain, if_neg Bool.false_ne_true]
  rcases extend?_cases gathered.unasked output s.render with ⟨next, found, outputs, quiet⟩ | ⟨missing, others⟩
  · rw [found]
    refine ⟨quiet, ?_, fun draft member => ?_⟩
    · change Writer.Apart (next.map (·.output))
      rw [outputs]
      exact gathered.apart
    · have listed : draft.output ∈ drafts.map (·.output) := outputs ▸ List.mem_map_of_mem member
      obtain ⟨other, inside, same⟩ := List.mem_map.mp listed
      exact List.mem_append_left _ (same ▸ gathered.among other inside)
  · rw [missing, Option.getD_none]
    refine ⟨fun draft member => ?_, ?_, fun draft member => ?_⟩
    · rcases List.mem_append.mp member with earlier | new
      · exact gathered.unasked draft earlier
      · rw [List.mem_singleton.mp new]
    · rw [List.map_append, List.map_singleton]
      exact List.pairwise_append.mpr ⟨gathered.apart, List.pairwise_singleton _ _, by simpa using others⟩
    · rcases List.mem_append.mp member with earlier | new
      · exact List.mem_append_left _ (gathered.among draft earlier)
      · rw [List.mem_singleton.mp new]
        exact List.mem_append_right _ (List.mem_singleton_self _)

theorem gathered_placed (l : Layout) (input : Path) {sections : List Section}
    (unasked : ∀ s ∈ sections, s.code.fileName = none) :
    Gathered (sections.map (l.derivedTarget input)) ((l.placed input sections).foldl Layout.addSection []) := by
  induction sections using List.reverseRecOn with
  | nil => exact ⟨by simp [placed], List.Pairwise.nil, by simp [placed]⟩
  | append_singleton before s ih =>
    have own : s.code.fileName = none := unasked s (by simp)
    have last : l.placed input [s] = [(s, l.derivedTarget input s)] := by
      rw [placed, List.filterMap_cons, target, own]
      rfl
    have split : l.placed input (before ++ [s]) = l.placed input before ++ [(s, l.derivedTarget input s)] := by
      rw [← last, placed, List.filterMap_append]
      rfl
    rw [split, List.foldl_append, List.foldl_cons, List.foldl_nil, List.map_append, List.map_singleton]
    exact (ih fun t member => unasked t (List.mem_append_left _ member)).addSection own _

/-- Blocks that ask for no name come together in files of which no two are one. -/
theorem assemble_apart (l : Layout) (input : Path) {sections : List Section}
    (unasked : ∀ s ∈ sections, s.code.fileName = none) :
    Writer.Apart ((l.assemble input sections).1.map (·.output)) ∧
      ∀ f ∈ (l.assemble input sections).1, ∃ s ∈ sections, f.output = l.derivedTarget input s := by
  have gathered := gathered_placed l input unasked
  constructor
  · rw [assemble, List.map_map]
    exact gathered.apart
  · intro f member
    obtain ⟨draft, inside, rfl⟩ := List.mem_map.mp member
    obtain ⟨s, among, target⟩ := List.mem_map.mp (gathered.among draft inside)
    exact ⟨s, among, target.symm⟩

end Layout

end MarkerGen
