import Mathlib.Data.String.Basic
import MarkerGen.Proofs.Registry.Ambiguity

/-! The listing of a registry and what it resolves to. Sorting keeps claims that rank alike in their
order, as the search for the best claim does, so that the first row that can serve a request is the claim
that serves it. This holds after any history of priorities and registrations. -/
namespace MarkerGen

section
variable {α : Type} {le : α → α → Bool} (trans : ∀ a b c, le a b = true → le b c = true → le a c = true)
  (total : ∀ a b, (le a b || le b a) = true)
include trans total

/-- Sorting keeps items in their order that are level with each other. -/
theorem filter_mergeSort_level {p : α → Bool} (level : ∀ a b, p a = true → p b = true → le a b = true)
    (items : List α) : (items.mergeSort le).filter p = items.filter p := by
  have ordered : (items.filter p).Pairwise (le · · = true) := by
    refine List.pairwise_of_forall_mem_list fun a inA b inB => ?_
    exact level a b (List.mem_filter.mp inA).2 (List.mem_filter.mp inB).2
  have kept := (List.sublist_mergeSort trans total ordered List.filter_sublist).filter p
  rw [List.filter_filter] at kept
  have same := ((List.mergeSort_perm items le).filter p).length_eq
  exact (List.Sublist.eq_of_length (by simpa using kept) same.symm).symm

theorem find?_mergeSort_least {p : α → Bool} {items before after : List α} {least : α}
    (parts : items.filter p = before ++ least :: after) (above : ∀ a ∈ before, le a least = false)
    (notBelow : ∀ a ∈ after, le least a = true) : (items.mergeSort le).find? p = some least := by
  have reflexive (a : α) : le a a = true := by simpa using total a a
  have member {a : α} : a ∈ before ++ least :: after ↔ a ∈ items.mergeSort le ∧ p a = true := by
    rw [← parts, List.mem_filter, List.mem_mergeSort]
  obtain ⟨listed, wanted⟩ := member.mp (List.mem_append_right before List.mem_cons_self)
  obtain ⟨first, found⟩ := Option.isSome_iff_exists.mp (List.find?_isSome.mpr ⟨least, listed, wanted⟩)
  obtain ⟨own, front, back, split, others⟩ := List.find?_eq_some_iff_append.mp found
  have sorted := List.pairwise_mergeSort trans total items
  rw [split] at sorted listed
  -- The first item of the kind is level with the least one.
  have below : le first least = true := by
    rcases List.mem_append.mp listed with inFront | inBack
    · simpa [wanted] using others least inFront
    · rcases List.mem_cons.mp inBack with rfl | later
      · exact reflexive least
      · exact List.rel_of_pairwise_cons (List.pairwise_append.mp sorted).2.1 later
  have upon : le least first = true := by
    have among := member.mpr ⟨split ▸ List.mem_append_right front List.mem_cons_self, own⟩
    rcases List.mem_append.mp among with inBefore | inRest
    · rw [above first inBefore] at below
      cases below
    · rcases List.mem_cons.mp inRest with rfl | inAfter
      · exact reflexive first
      · exact notBelow first inAfter
  -- Both are the first of those that are level with the least one, before and after sorting.
  have level := filter_mergeSort_level (p := fun a => (le a least && le least a) && p a) trans total
    (fun a b levelA levelB => by
      simp only [Bool.and_eq_true] at levelA levelB
      exact trans a least b levelA.1.1 levelB.1.2) items
  have firstSorted : ((items.mergeSort le).filter fun a => (le a least && le least a) && p a).head? = some first := by
    have quiet : front.filter (fun a => (le a least && le least a) && p a) = [] :=
      List.filter_eq_nil_iff.mpr fun a inside => by simp [show p a = false by simpa using others a inside]
    rw [split, List.filter_append, quiet, List.nil_append, List.filter_cons_of_pos (by simp [below, upon, own])]
    rfl
  have firstListed : (items.filter fun a => (le a least && le least a) && p a).head? = some least := by
    have quiet : before.filter (fun a => le a least && le least a) = [] :=
      List.filter_eq_nil_iff.mpr fun a inside => by simp [above a inside]
    rw [← List.filter_filter, parts, List.filter_append, quiet, List.nil_append,
      List.filter_cons_of_pos (by simp [reflexive least])]
    rfl
  rw [found, ← firstSorted, level, firstListed]

end

namespace Registry

inductive Change where
  | priority (tag : Tag) (ids : List String)
  | plugin (loaded : LoadedPlugin)

def changed (r : Registry) : Change → Registry
  | .priority tag ids => r.setPriority tag ids
  | .plugin loaded => r.attempt loaded

/-- The plugins that a registry accepts while it is changed. -/
def taken (r : Registry) : List Change → List LoadedPlugin
  | [] => []
  | .priority tag ids :: rest => (r.setPriority tag ids).taken rest
  | .plugin loaded :: rest => r.accepted [loaded] ++ (r.attempt loaded).taken rest

theorem plugins_changes (r : Registry) (changes : List Change) :
    (changes.foldl changed r).plugins = r.plugins ++ r.taken changes := by
  induction changes generalizing r with
  | nil => exact (List.append_nil _).symm
  | cons change rest ih =>
    rw [List.foldl_cons, ih]
    cases change with
    | priority tag ids => rfl
    | plugin loaded =>
      have own : (r.attempt loaded).plugins = r.plugins ++ r.accepted [loaded] := r.plugins_attempts [loaded]
      rw [taken, changed, own, List.append_assoc]

def after (changes : List Change) : Registry := changes.foldl changed empty

theorem agrees_changed {r : Registry} (agrees : Agrees r.claims r.offers) (change : Change) :
    Agrees (r.changed change).claims (r.changed change).offers := by
  cases change with
  | priority tag ids => exact agrees
  | plugin loaded =>
    rcases attempt_cases r loaded with same | taken
    · rw [changed, same]
      exact agrees
    · exact agrees_register agrees taken

theorem agrees_after (changes : List Change) : Agrees (after changes).claims (after changes).offers := by
  unfold after
  induction changes using List.reverseRecOn with
  | nil => exact agrees_nil
  | append_singleton before change ih =>
    rw [List.foldl_append, List.foldl_cons, List.foldl_nil]
    exact agrees_changed ih change

section
variable (r : Registry)

theorem listedBefore_iff (a b : Claim) : r.listedBefore a b = true ↔
    a.tag.text < b.tag.text ∨ a.tag = b.tag ∧ toLex (r.rank a) ≤ toLex (r.rank b) := by
  rw [← not_lt, ← rankLt_iff]
  simp [listedBefore]

theorem listedBefore_trans (a b c : Claim) (first : r.listedBefore a b = true) (second : r.listedBefore b c = true) :
    r.listedBefore a c = true := by
  rw [listedBefore_iff] at *
  rcases first with less | ⟨same, first⟩
  · rcases second with more | ⟨same, _⟩
    · exact .inl (less.trans more)
    · exact .inl (same ▸ less)
  · rcases second with more | ⟨also, second⟩
    · exact .inl (same ▸ more)
    · exact .inr ⟨same.trans also, first.trans second⟩

theorem listedBefore_total (a b : Claim) : (r.listedBefore a b || r.listedBefore b a) = true := by
  rw [Bool.or_eq_true, listedBefore_iff, listedBefore_iff]
  rcases lt_trichotomy a.tag.text b.tag.text with less | same | more
  · exact .inl (.inl less)
  · have tags : a.tag = b.tag := by
      cases ha : a.tag
      cases hb : b.tag
      simp_all
    rcases le_total (toLex (r.rank a)) (toLex (r.rank b)) with order | order
    · exact .inl (.inr ⟨tags, order⟩)
    · exact .inr (.inr ⟨tags.symm, order⟩)
  · exact .inr (.inl more)

theorem listing_sorted : r.listing.Pairwise fun a b => a.tag.text ≤ b.tag.text := by
  refine (List.pairwise_mergeSort r.listedBefore_trans r.listedBefore_total r.claims).imp fun {a b} before => ?_
  rcases (r.listedBefore_iff a b).mp before with less | ⟨same, _⟩
  · exact le_of_lt less
  · exact le_of_eq (congrArg Tag.text same)

/-- Among claims on one tag, the first row is the best claim. -/
theorem find?_listing (tag : Tag) {p : Claim → Bool} (tagged : ∀ c, p c = true → c.tag = tag) :
    r.listing.find? p = r.best (r.claims.filter p) := by
  cases found : r.best (r.claims.filter p) with
  | none =>
    have empty : r.claims.filter p = [] := by
      by_contra nonempty
      obtain ⟨winner, won⟩ := best_isSome (r := r) nonempty
      rw [won] at found
      cases found
    rw [List.find?_eq_none]
    intro c listed
    exact List.filter_eq_nil_iff.mp empty c (List.mem_mergeSort.mp listed)
  | some winner =>
    obtain ⟨before, after, parts, above, notBelow⟩ := best_split found
    have ofWinner : ∀ c ∈ r.claims.filter p, c.tag = winner.tag := by
      intro c inside
      have own : winner ∈ r.claims.filter p := by simp [parts]
      rw [tagged c (List.mem_filter.mp inside).2, tagged winner (List.mem_filter.mp own).2]
    refine find?_mergeSort_least r.listedBefore_trans r.listedBefore_total parts (fun c inBefore => ?_)
      fun c inAfter => ?_
    · have same := ofWinner c (by simp [parts, inBefore])
      rw [← Bool.not_eq_true, listedBefore_iff, same, not_or, not_and, not_le]
      exact ⟨lt_irrefl _, fun _ => above c inBefore⟩
    · have same := ofWinner c (by simp [parts, inAfter])
      exact (r.listedBefore_iff winner c).mpr (.inr ⟨same.symm, notBelow c inAfter⟩)

theorem toOption_resolve (tag : Tag) : (r.resolve tag).toOption = r.best (r.claimsOf tag) := by
  unfold resolve
  cases r.best (r.claimsOf tag) <;> rfl

theorem toOption_resolveFor (tag : Tag) (kind : Kind) :
    (r.resolveFor tag kind).toOption = r.best (r.claims.filter (Claim.covers tag kind)) := by
  rw [resolveFor_candidates]
  split
  · cases r.best (r.claims.filter (Claim.covers tag kind)) <;> rfl
  next missing =>
    have none : r.claims.filter (Claim.covers tag kind) = [] := by
      simp only [provides, claimsOf, Bool.not_eq_true', Bool.not_eq_false, List.isEmpty_iff,
        List.filter_eq_nil_iff, beq_iff_eq] at missing
      exact List.filter_eq_nil_iff.mpr fun c inside => by simp [Claim.covers, missing c inside]
    rw [none]
    rfl

end

/-- The listing has each claim once, with the tags in order. The rows for a tag and a kind are the live
offers, each once. The first row of a tag is what the tag resolves to, and the first row that covers a kind
is what serves the kind; where there is no such row, nothing does. -/
theorem listing_predicts (changes : List Change) :
    (after changes).plugins = empty.taken changes ∧
    (after changes).listing.Perm (after changes).claims ∧
    (after changes).listing.Pairwise (fun a b => a.tag.text ≤ b.tag.text) ∧
    (∀ tag kind, ∃ live : List Offer, (∀ o, o ∈ live ↔ (after changes).Live tag kind o) ∧ live.Nodup ∧
      (((after changes).listing.filter (Claim.covers tag kind)).map Claim.core).Perm (live.map Offer.core)) ∧
    (∀ tag, (after changes).listing.find? (·.tag == tag) = ((after changes).resolve tag).toOption) ∧
    ∀ tag kind, (after changes).listing.find? (Claim.covers tag kind) =
      ((after changes).resolveFor tag kind).toOption := by
  have agrees := agrees_after changes
  have plugins : (after changes).plugins = empty.taken changes := plugins_changes empty changes
  generalize after changes = r at agrees plugins
  refine ⟨plugins, List.mergeSort_perm _ _, r.listing_sorted, fun tag kind => ?_, fun tag => ?_, fun tag kind => ?_⟩
  · refine ⟨r.offers.filter (Offer.standsIn r.offers tag kind), fun o => mem_standing_iff, ?_, ?_⟩
    · refine ((offers_sorted r).filter _).imp fun less same => ?_
      rw [same] at less
      exact lt_irrefl _ less
    · rw [← agrees.standing]
      exact ((List.mergeSort_perm _ _).filter _).map _
  · rw [r.find?_listing tag (by simp), toOption_resolve]
    rfl
  · rw [r.find?_listing tag (by simp +contextual [Claim.covers]), toOption_resolveFor]

/-- The list of the tag is set between the registrations, the third plugin overrides the others for
structures, and the last one is refused. -/
theorem listing_predicts_overridden :
    let changes : List Change := [.plugin (offering "a" [.classType, .structType] false), .priority ⟨"x"⟩ ["b"],
      .plugin (offering "b" [.classType] false), .plugin (offering "c" [.structType] true),
      .plugin (offering "d" [.classType] false)]
    (after changes).plugins.map (·.plugin.id) = ["a", "b", "c"] ∧
      ((after changes).listing.find? (·.tag == ⟨"x"⟩)).map (·.plugin.id) = some "b" ∧
      ((after changes).listing.find? (Claim.covers ⟨"x"⟩ .structType)).map (·.plugin.id) = some "c" := by
  intro changes
  obtain ⟨plugins, _, _, _, first, firstFor⟩ := listing_predicts changes
  refine ⟨by rw [plugins]; rfl, ?_, ?_⟩
  · rw [first]
    rfl
  · rw [firstFor]
    rfl

end Registry

end MarkerGen
