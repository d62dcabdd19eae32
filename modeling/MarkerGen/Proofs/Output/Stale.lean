import MarkerGen.Output.Manifest
import MarkerGen.Proofs.Distinct

/-! Stale outputs: which they are, and that none is reported twice. -/
namespace MarkerGen

namespace Path

theorem same_iff {p q : Path} : p.same q = true ↔ p.components = q.components := beq_iff_eq

theorem same_comm (p q : Path) : p.same q = q.same p := by
  rw [Bool.eq_iff_iff, same_iff, same_iff, eq_comm]

theorem same_trans {p q r : Path} (first : p.same q = true) (second : q.same r = true) : p.same r = true :=
  same_iff.mpr ((same_iff.mp first).trans (same_iff.mp second))

theorem same_congr {p q : Path} (one : p.same q = true) (r : Path) : p.same r = q.same r := by
  unfold same
  rw [same_iff.mp one]

end Path

namespace Manifest

theorem lists_eq_true {m : Manifest} {output : Path} :
    m.lists output = true ↔ ∃ e ∈ m.entries, e.output.same output = true := List.any_eq_true

theorem lists_congr {a b : Path} (same : a.same b = true) (m : Manifest) : m.lists a = m.lists b := by
  unfold lists
  congr 1
  funext entry
  rw [Path.same_comm, Path.same_congr same, Path.same_comm]

theorem mem_staleOutputs {previous current : Manifest} {regenerated : List Path} {output : Path}
    (stale : output ∈ previous.staleOutputs current regenerated) :
    (∃ e ∈ previous.entries, e.output = output ∧ regenerated.any (·.same e.input) = true) ∧ current.lists output = false := by
  obtain ⟨e, inside, rfl⟩ := List.mem_map.mp ((firstOfEach_sublist _ _ _).subset stale)
  obtain ⟨member, why⟩ := List.mem_filter.mp inside
  obtain ⟨again, unlisted⟩ := Bool.and_eq_true_iff.mp why
  exact ⟨⟨e, member, rfl, again⟩, by simpa using unlisted⟩

theorem stale_iff {previous current : Manifest} {regenerated : List Path} {output : Path} :
    (previous.staleOutputs current regenerated).any (·.same output) = true ↔
      current.lists output = false ∧
        ∃ e ∈ previous.entries, e.output.same output = true ∧ regenerated.any (·.same e.input) = true := by
  rw [List.any_eq_true]
  constructor
  · rintro ⟨reported, stale, one⟩
    obtain ⟨⟨e, member, rfl, again⟩, unlisted⟩ := mem_staleOutputs stale
    exact ⟨(lists_congr one current).symm.trans unlisted, e, member, one, again⟩
  · rintro ⟨unlisted, e, member, one, again⟩
    have unlistedEntry : current.lists e.output = false := (lists_congr one current).trans unlisted
    have chosen : e.output ∈ (previous.entries.filter fun entry =>
        regenerated.any (·.same entry.input) && !current.lists entry.output).map (·.output) :=
      List.mem_map_of_mem (List.mem_filter.mpr ⟨member, by rw [again, unlistedEntry]; rfl⟩)
    have reflexive : e.output.same e.output = true := Path.same_iff.mpr rfl
    rcases firstOfEach_covers reflexive [] chosen with before | ⟨kept, stale, same⟩
    · cases before
    · rw [Path.same_comm] at same
      exact ⟨kept, stale, Path.same_trans same one⟩

theorem stale_apart (previous current : Manifest) (regenerated : List Path) :
    (previous.staleOutputs current regenerated).Pairwise fun a b => a.same b = false := by
  refine (firstOfEach_fresh Path.same [] _).2.imp fun different => ?_
  rw [Path.same_comm]
  exact different

end Manifest

end MarkerGen
