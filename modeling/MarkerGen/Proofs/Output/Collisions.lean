import MarkerGen.Proofs.Output.Writing

/-! No output is written by two fragments of a run. A writer knows the fragments of the batches that
got past its check, whether they could be written or not, and it refuses a batch exactly if one of
its fragments has an output of theirs or of a fragment before it. -/
namespace MarkerGen

/-- Among earlier fragments there is one with the same output. -/
def Fragment.Collides (earlier : List Fragment) (f : Fragment) : Prop := ∃ g ∈ earlier, g.output.same f.output = true

namespace Writer

def noted (f : Fragment) : Path × String := (f.output, f.origin)

/-- No fragment of a batch collides with one before it. -/
def Clear (earlier batch : List Fragment) : Prop :=
  ∀ front f back, batch = front ++ f :: back → ¬ Fragment.Collides (earlier ++ front) f

theorem clear_nil (earlier : List Fragment) : Clear earlier [] := by
  intro front f back split
  simp at split

theorem clear_cons {earlier rest : List Fragment} {f : Fragment} :
    Clear earlier (f :: rest) ↔ ¬ Fragment.Collides earlier f ∧ Clear (earlier ++ [f]) rest := by
  constructor
  · intro clear
    refine ⟨by simpa using clear [] f rest rfl, fun front g back split => ?_⟩
    have later := clear (f :: front) g back (by rw [split]; rfl)
    rwa [List.append_assoc, List.singleton_append]
  · rintro ⟨first, others⟩ front g back split
    cases front with
    | nil =>
      obtain ⟨rfl, rfl⟩ := List.cons.inj split
      simpa using first
    | cons x front =>
      obtain ⟨rfl, whole⟩ := List.cons.inj split
      have later := others front g back whole
      rwa [List.append_assoc, List.singleton_append] at later

theorem apart_of_clear {earlier batch : List Fragment} (apart : Apart (earlier.map (·.output)))
    (clear : Clear earlier batch) : Apart ((earlier ++ batch).map (·.output)) := by
  induction batch generalizing earlier with
  | nil => simpa using apart
  | cons f rest ih =>
    obtain ⟨first, others⟩ := clear_cons.mp clear
    have more : Apart ((earlier ++ [f]).map (·.output)) := by
      rw [List.map_append, List.map_singleton]
      refine List.pairwise_append.mpr ⟨apart, List.pairwise_singleton _ _, ?_⟩
      intro output listed other alone
      obtain ⟨g, member, rfl⟩ := List.mem_map.mp listed
      rw [List.mem_singleton.mp alone, ← Bool.not_eq_true]
      exact fun same => first ⟨g, member, same⟩
    have whole := ih more others
    rwa [List.append_assoc, List.singleton_append] at whole

theorem claimant_none_iff {earlier : List Fragment} {f : Fragment} :
    claimant? (earlier.map noted) f.output = none ↔ ¬ f.Collides earlier := by
  simp [claimant?, Fragment.Collides, noted]

theorem claimant_some {earlier : List Fragment} {f : Fragment} {first : String}
    (found : claimant? (earlier.map noted) f.output = some first) :
    ∃ g ∈ earlier, g.output.same f.output = true ∧ first = g.origin := by
  obtain ⟨row, matched, rfl⟩ := Option.map_eq_some_iff.mp found
  obtain ⟨g, member, rfl⟩ := List.mem_map.mp (List.mem_of_find?_eq_some matched)
  have same : (noted g).1.same f.output = true := by simpa using List.find?_some matched
  exact ⟨g, member, same, rfl⟩

/-- A collision as a writer reports it: `f` is the first fragment of the batch that collides, and
`g` has its output. -/
def Collision (earlier batch : List Fragment) (path : Path) (first second : String) : Prop :=
  ∃ front f back g, batch = front ++ f :: back ∧ Clear earlier front ∧ g ∈ earlier ++ front ∧
    g.output.same f.output = true ∧ path = f.output ∧ first = g.origin ∧ second = f.origin

theorem collision_cons {earlier rest : List Fragment} {f : Fragment} {path : Path} {first second : String}
    (free : ¬ f.Collides earlier) (collision : Collision (earlier ++ [f]) rest path first second) :
    Collision earlier (f :: rest) path first second := by
  obtain ⟨front, x, back, g, split, clear, member, facts⟩ := collision
  refine ⟨f :: front, x, back, g, by rw [split]; rfl, clear_cons.mpr ⟨free, clear⟩, ?_, facts⟩
  rwa [List.append_assoc, List.singleton_append] at member

theorem not_clear_of_collision {earlier batch : List Fragment} {path : Path} {first second : String}
    (collision : Collision earlier batch path first second) : ¬ Clear earlier batch := by
  obtain ⟨front, f, back, g, split, _, member, same, _⟩ := collision
  exact fun clear => clear front f back split ⟨g, member, same⟩

theorem claim_cases (earlier batch : List Fragment) :
    Clear earlier batch ∧ claim (earlier.map noted) batch = .ok ((earlier ++ batch).map noted) ∨
      ∃ path first second, Collision earlier batch path first second ∧
        claim (earlier.map noted) batch = .error (.collision path first second) := by
  induction batch generalizing earlier with
  | nil => exact .inl ⟨clear_nil earlier, by rw [claim, List.append_nil]⟩
  | cons f rest ih =>
    cases claimant : claimant? (earlier.map noted) f.output with
    | some first =>
      obtain ⟨g, member, same, origin⟩ := claimant_some claimant
      refine .inr ⟨f.output, first, f.origin, ⟨[], f, rest, g, rfl, clear_nil earlier, ?_, same, rfl, origin, rfl⟩, ?_⟩
      · simpa using member
      · rw [claim, claimant]
    | none =>
      have free := claimant_none_iff.mp claimant
      have onward : claim (earlier.map noted) (f :: rest) = claim ((earlier ++ [f]).map noted) rest := by
        rw [claim, claimant, List.map_append]
        rfl
      rw [onward]
      rcases ih (earlier ++ [f]) with ⟨clear, ok⟩ | ⟨path, first, second, collision, refused⟩
      · refine .inl ⟨clear_cons.mpr ⟨free, clear⟩, ?_⟩
        rw [ok, List.append_assoc, List.singleton_append]
      · exact .inr ⟨path, first, second, collision_cons free collision, refused⟩

def isCollision : WriteError → Bool
  | .collision .. => true
  | .io .. => false

/-- Whether a batch was refused for a collision, rather than failed while it was written. -/
def refused {α : Type} : Except WriteError α → Bool
  | .ok _ => false
  | .error error => isCollision error

theorem writeFragment_not_refused (outDir : Path) (fs : FileStore) (f : Fragment) :
    refused (writeFragment outDir fs f).2 = false := by
  unfold writeFragment
  dsimp only
  split
  · rfl
  · split
    · rfl
    · rw [FileStore.writeFile_eq]
      split
      · rfl
      · split <;> rfl

theorem writeAll_not_refused (outDir : Path) (fs : FileStore) (fragments : List Fragment) :
    refused (writeAll outDir fs fragments).2 = false := by
  induction fragments generalizing fs with
  | nil => rfl
  | cons f rest ih =>
    have first := writeFragment_not_refused outDir fs f
    rw [writeAll_step]
    split
    next middle error written =>
      rw [written] at first
      exact first
    next middle record written =>
      have others := ih middle
      cases later : writeAll outDir middle rest with
      | mk final result =>
        rw [later] at others
        cases result with
        | ok records => rfl
        | error error => exact others

/-- A batch is refused and leaves no trace, or it gets past the check and all of it is noted. -/
theorem writeBatch_cases {w : Writer} {earlier : List Fragment} (known : w.claimed = earlier.map noted)
    (fs : FileStore) (batch : List Fragment) :
    (∃ path first second, Collision earlier batch path first second ∧
        w.writeBatch fs batch = (w, fs, .error (.collision path first second))) ∨
      Clear earlier batch ∧ (w.writeBatch fs batch).1 = ⟨w.outDir, (earlier ++ batch).map noted⟩ ∧
        (w.writeBatch fs batch).2 = writeAll w.outDir fs batch := by
  unfold writeBatch
  rw [known]
  rcases claim_cases earlier batch with ⟨clear, ok⟩ | ⟨path, first, second, collision, error⟩
  · rw [ok]
    exact .inr ⟨clear, rfl, rfl⟩
  · rw [error]
    exact .inl ⟨path, first, second, collision, rfl⟩

def after (w : Writer) : List (FileStore × List Fragment) → Writer
  | [] => w
  | (fs, batch) :: rest => (w.writeBatch fs batch).1.after rest

/-- The fragments of those batches that are not refused. -/
def passed (w : Writer) : List (FileStore × List Fragment) → List Fragment
  | [] => []
  | (fs, batch) :: rest =>
    (if refused (w.writeBatch fs batch).2.2 then [] else batch) ++ (w.writeBatch fs batch).1.passed rest

theorem after_known {w : Writer} {earlier : List Fragment} (known : w.claimed = earlier.map noted)
    (apart : Apart (earlier.map (·.output))) (calls : List (FileStore × List Fragment)) :
    (w.after calls).claimed = (earlier ++ w.passed calls).map noted ∧
      Apart ((earlier ++ w.passed calls).map (·.output)) := by
  induction calls generalizing w earlier with
  | nil => simpa [after, passed] using ⟨known, apart⟩
  | cons call rest ih =>
    obtain ⟨fs, batch⟩ := call
    rw [after, passed]
    rcases writeBatch_cases known fs batch with ⟨path, first, second, _, error⟩ | ⟨clear, next, written⟩
    · rw [error]
      exact ih known apart
    · have through : refused (w.writeBatch fs batch).2.2 = false := by
        rw [written]
        exact writeAll_not_refused w.outDir fs batch
      rw [through, if_neg (by simp), ← List.append_assoc]
      exact ih (by rw [next]) (apart_of_clear apart clear)

/-- After any calls, a batch is refused exactly if one of its fragments collides with a fragment
before it, in the batch or in a batch that got past the check. Then nothing changes, and the error
names the first such fragment and the one whose output it has. -/
theorem refused_iff_collides (outDir : Path) (calls : List (FileStore × List Fragment)) (fs : FileStore)
    (batch : List Fragment) :
    ((∃ path first second, (((fresh outDir).after calls).writeBatch fs batch).2.2 =
        .error (.collision path first second)) ↔
      ∃ front f back, batch = front ++ f :: back ∧ f.Collides ((fresh outDir).passed calls ++ front)) ∧
    (∀ path first second, (((fresh outDir).after calls).writeBatch fs batch).2.2 =
        .error (.collision path first second) →
      (((fresh outDir).after calls).writeBatch fs batch).1 = (fresh outDir).after calls ∧
      (((fresh outDir).after calls).writeBatch fs batch).2.1 = fs ∧
      Collision ((fresh outDir).passed calls) batch path first second) ∧
    Apart (((fresh outDir).passed calls).map (·.output)) := by
  have start : (fresh outDir).claimed = ([] : List Fragment).map noted := rfl
  obtain ⟨known, apart⟩ := after_known start List.Pairwise.nil calls
  rw [List.nil_append] at known apart
  refine ⟨?_, ?_, apart⟩
  · rcases writeBatch_cases known fs batch with ⟨path, first, second, collision, error⟩ | ⟨clear, _, written⟩
    · obtain ⟨front, f, back, g, split, _, member, same, _⟩ := collision
      refine iff_of_true ⟨path, first, second, by rw [error]⟩ ⟨front, f, back, split, g, member, same⟩
    · refine iff_of_false ?_ ?_
      · rintro ⟨path, first, second, error⟩
        have through := writeAll_not_refused ((fresh outDir).after calls).outDir fs batch
        rw [← written, error] at through
        cases through
      · rintro ⟨front, f, back, split, collides⟩
        exact clear front f back split collides
  · intro path first second error
    rcases writeBatch_cases known fs batch with ⟨path', first', second', collision, whole⟩ | ⟨_, _, written⟩
    · rw [whole] at error ⊢
      cases error
      exact ⟨rfl, rfl, collision⟩
    · have through := writeAll_not_refused ((fresh outDir).after calls).outDir fs batch
      rw [← written, error] at through
      cases through

end Writer

end MarkerGen
