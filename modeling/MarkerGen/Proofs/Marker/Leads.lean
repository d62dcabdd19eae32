import MarkerGen.Proofs.Marker.RoundTrip
import MarkerGen.Scan
import MarkerGen.Settings.Config

/-! The leads that a configuration may have. Every lead that is not blank is accepted; but tokens are
trimmed before a lead is looked for, so that one with a blank in front makes every marker a plain
annotation. -/
namespace MarkerGen

theorem Config.lead_of_validate {c : Config} (valid : c.validate = .ok ()) : c.scanner.lead.toList ≠ [] := by
  unfold validate at valid
  dsimp only at valid
  split at valid
  next => cases valid
  next none =>
    intro empty
    have blank := List.find?_eq_none.mp none (Text.isBlank c.scanner.lead, .noMarkerLead) (by simp)
    simp [Text.isBlank, empty] at blank

namespace Marker
open Chars

/-- A lead whose first character is not blank. -/
def StartsSolid (lead : String) : Prop := ∃ c ∈ lead.toList.head?, isBlank c = false

theorem not_startsSolid_iff {lead : String} (nonempty : lead.toList ≠ []) :
    ¬ StartsSolid lead ↔ ∃ c ∈ lead.toList.head?, isBlank c = true := by
  obtain ⟨c, rest, split⟩ := List.exists_cons_of_ne_nil nonempty
  simp [StartsSolid, split]

theorem parse_of_blank_front {lead : String} {c : Char} (first : c ∈ lead.toList.head?) (blank : isBlank c = true)
    (token : String) : parse lead token = .ok none := by
  have absent : ¬ lead.toList <+: trim token.toList := by
    rintro ⟨rest, whole⟩
    have front : c ∈ (trim token.toList).head? := by
      rw [← whole, List.head?_append, Option.mem_def.mp first]
      rfl
    rw [(trimmed_trim token.toList).first c front] at blank
    cases blank
  rw [parse, afterLead?_eq_none_iff.mpr absent]

theorem parse_of_startsSolid {lead : String} (solid : StartsSolid lead) {name : List Char} {args : List Argument}
    (named : isName isNameChar name = true) (printable : ∀ arg ∈ args, Printable arg) :
    parse lead (String.ofList (print lead.toList name args)) =
      .ok (some ⟨.ofText (String.ofList name), args, String.ofList (print lead.toList name args)⟩) := by
  obtain ⟨c, first, plain⟩ := solid
  have led : ∀ d ∈ lead.toList.head?, isBlank d = false := by
    intro d front
    rw [← Option.mem_unique first front]
    exact plain
  rw [parse_print lead name args led named printable, ofText_name (isName_iff.mp named).2]

theorem matchesOf_of_silent {lead : String} (silent : ∀ token, parse lead token = .ok none) (u : SourceUnit) :
    Scan.matchesOf lead u = [] := by
  have none (token : String) : Scan.marker? lead token = none := by
    rw [Scan.marker?, silent token]
  simp [Scan.matchesOf, Scan.markers, none, firstOfEach]

/-- A declaration with one token. -/
def tagged (token : String) : Declaration :=
  ⟨.enumeration, "E", "E", [], [], ⟨⟨"s"⟩, 1, 1⟩, [token], [], .publicMember, none, [], .enumeration ⟨false, none, []⟩⟩

theorem matchesOf_tagged {lead token : String} {m : Marker} (read : parse lead token = .ok (some m)) :
    Scan.matchesOf lead ((SourceUnit.empty ⟨"s"⟩ []).push (tagged token)) = [⟨⟨0, tagged token⟩, m⟩] := by
  have entries : ((SourceUnit.empty ⟨"s"⟩ []).push (tagged token)).entries = [⟨0, tagged token⟩] := rfl
  have markers : Scan.markers lead (tagged token) = [m] := by
    simp [Scan.markers, tagged, Scan.marker?, read, firstOfEach]
  rw [Scan.matchesOf, entries]
  simp [markers]

/-- With the lead of a configuration that is accepted, the markers written with it are read exactly if it
does not start with a blank. Otherwise no token is taken for a marker or for a malformed one, and no
unit has a match. -/
theorem parse_configured_iff {c : Config} (valid : c.validate = .ok ()) :
    (∀ name args, isName isNameChar name = true → (∀ arg ∈ args, Printable arg) →
      let token := String.ofList (print c.scanner.lead.toList name args)
      (parse c.scanner.lead token = .ok (some ⟨.ofText (String.ofList name), args, token⟩) ↔
        StartsSolid c.scanner.lead)) ∧
    ((∀ token, parse c.scanner.lead token = .ok none) ↔ ¬ StartsSolid c.scanner.lead) ∧
    ((∀ u, Scan.matchesOf c.scanner.lead u = []) ↔ ¬ StartsSolid c.scanner.lead) := by
  have nonempty := Config.lead_of_validate valid
  generalize c.scanner.lead = lead at nonempty ⊢
  have silent (blank : ¬ StartsSolid lead) (token : String) : parse lead token = .ok none := by
    obtain ⟨c, first, front⟩ := (not_startsSolid_iff nonempty).mp blank
    exact parse_of_blank_front first front token
  have read (solid : StartsSolid lead) : ∃ token m, parse lead token = .ok (some m) :=
    ⟨_, _, @parse_of_startsSolid lead solid ['f'] [] (by decide) (by simp)⟩
  refine ⟨fun name args named printable => ⟨fun read => ?_, fun solid => ?_⟩, ⟨fun none solid => ?_, silent⟩,
    ⟨fun empty solid => ?_, fun blank => matchesOf_of_silent (silent blank)⟩⟩
  · by_contra blank
    rw [silent blank] at read
    cases read
  · exact parse_of_startsSolid solid named printable
  · obtain ⟨token, m, found⟩ := read solid
    rw [none] at found
    cases found
  · obtain ⟨token, m, found⟩ := read solid
    have single := matchesOf_tagged found
    rw [empty] at single
    cases single

theorem parse_configured_custom :
    let c : Config := { Config.default with scanner := ⟨"@gen ", true⟩ }
    c.validate = .ok () ∧
    parse "@gen " "@gen Make_Map(type = \"std::map<int, (a]\")" =
      .ok (some ⟨⟨"make-map"⟩, [⟨some "type", "std::map<int, (a]"⟩], "@gen Make_Map(type = \"std::map<int, (a]\")"⟩) := by
  intro c
  let args : List Argument := [⟨some "type", "std::map<int, (a]"⟩]
  have valid : c.validate = .ok () := by decide +kernel
  have printable : ∀ arg ∈ args, Printable arg := by decide +kernel
  have solid : StartsSolid c.scanner.lead := ⟨'@', by decide +kernel, by decide⟩
  have written : String.ofList (print c.scanner.lead.toList "Make_Map".toList args) =
      "@gen Make_Map(type = \"std::map<int, (a]\")" := by decide +kernel
  have tag : Tag.ofText (String.ofList "Make_Map".toList) = ⟨"make-map"⟩ := by decide +kernel
  have read := ((parse_configured_iff valid).1 "Make_Map".toList args (by decide +kernel) printable).mpr solid
  rw [written, tag] at read
  exact ⟨valid, read⟩

/-- A lead with a blank in front is accepted, and a marker that is written with it is none. -/
theorem blank_front_disables :
    ({ Config.default with scanner := ⟨" @gen ", true⟩ } : Config).validate = .ok () ∧
    isName isNameChar ['f'] = true ∧ String.ofList (print " @gen ".toList ['f'] []) = " @gen f()" ∧
    parse " @gen " " @gen f()" = .ok none := by
  decide +kernel

end Marker

end MarkerGen
