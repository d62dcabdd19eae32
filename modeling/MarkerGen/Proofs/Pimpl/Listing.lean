import MarkerGen.Proofs.Pimpl.Forwarding

/-! The report on an implementation class lists what is passed on to it. For a carrier without an interface
class the signatures in the report are the declarations that are generated, and their definitions pass on
every parameter. -/
namespace MarkerGen.Pimpl

/-- How a parameter stands in a call. A pack of forwarding references is forwarded, other rvalues and values
of a class are moved, and packs are expanded. -/
inductive Passes (p : Param) : String → Prop
  | forwarded {element : String} (pack : p.packType? = some element) :
      Passes p ("std::forward<" ++ element ++ ">(" ++ p.name ++ ")...")
  | moved (plain : p.packType? = none) (moves : p.needsMove = true) (single : p.isPack = false) :
      Passes p ("std::move(" ++ p.name ++ ")")
  | movedPack (plain : p.packType? = none) (moves : p.needsMove = true) (pack : p.isPack = true) :
      Passes p ("std::move(" ++ p.name ++ ")" ++ "...")
  | named (plain : p.packType? = none) (stays : p.needsMove = false) (single : p.isPack = false) : Passes p p.name
  | namedPack (plain : p.packType? = none) (stays : p.needsMove = false) (pack : p.isPack = true) :
      Passes p (p.name ++ "...")

theorem passes_callArgument (p : Param) : Passes p (callArgument p) := by
  unfold callArgument
  split
  next pack => exact .forwarded pack
  next plain =>
    dsimp only
    by_cases moves : p.needsMove = true <;> by_cases pack : p.isPack = true
    · simpa [moves, pack] using Passes.movedPack plain moves pack
    · simpa [moves, pack] using Passes.moved plain moves (by simpa using pack)
    · simpa [moves, pack] using Passes.namedPack plain (by simpa using moves) pack
    · simpa [moves, pack] using Passes.named plain (by simpa using moves) (by simpa using pack)

theorem passes_calls (methods : List Declared) :
    List.Forall₂ (fun method call => List.Forall₂ Passes (params method.decl) call) methods
      (methods.map fun method => (params method.decl).map callArgument) := by
  rw [List.forall₂_map_right_iff, List.forall₂_same]
  intro method _
  rw [List.forall₂_map_right_iff, List.forall₂_same]
  exact fun p _ => passes_callArgument p

/-- The definition of a method that passes its call on with some arguments. -/
def definition (interface : Option String) (method : Declaration) (call : List String) : String :=
  signature method interface ++ "\n\x7b\n return impl_->" ++ method.name ++ "(" ++ Text.join ", " call ++ ");\n\x7d\n"

/-- A method whose parameters all have names. -/
def Named (method : Declaration) : Prop := ∀ p ∈ params method, p.name ≠ ""

theorem forward_body_ok_iff {interface : Option String} {method : Declaration} {text : String} :
    forward interface false method = .ok text ↔
      Named method ∧ text = definition interface method ((params method).map callArgument) := by
  rw [forward, if_neg Bool.false_ne_true]
  split
  next position found =>
    have unnamed : ¬ Named method := by
      intro named
      have any : (params method).any (·.name.isEmpty) = true := by
        rw [← List.findIdx?_isSome, found]
        rfl
      obtain ⟨p, member, empty⟩ := List.any_eq_true.mp any
      exact named p member (by simpa using empty)
    simp [unnamed]
  next none =>
    have named : Named method := by
      intro p member
      simpa using List.findIdx?_eq_none_iff.mp none p member
    simp [named, definition, eq_comm]

section
variable {r : Request} {codes : List Code}

theorem report_succeeds_iff :
    (∃ codes, report r = .ok codes) ↔ r.marker.args = [] ∧
      ∃ settings record methods, Resolved r.unit r.decl settings record methods ∧ methods ≠ [] := by
  simp only [report_ok_iff, exists_and_left]
  constructor
  · rintro ⟨unasked, _, settings, record, methods, found, nonempty, _⟩
    exact ⟨unasked, settings, record, methods, found, nonempty⟩
  · rintro ⟨unasked, settings, record, methods, found, nonempty⟩
    exact ⟨unasked, _, settings, record, methods, found, nonempty, rfl⟩

theorem methodCalls_succeeds_iff :
    (∃ codes, methodCalls r = .ok codes) ↔ (∀ arg ∈ r.marker.args, arg = declarationsOnly) ∧
      ∃ settings record methods, Resolved r.unit r.decl settings record methods ∧ methods ≠ [] ∧
        (r.marker.args = [] → ∀ method ∈ methods, Forwarded method.decl → Named method.decl) := by
  have texts (settings : Carrier) (methods : List Declared) :
      (∃ texts, List.Forall₂ (fun method text => forward settings.interface (!r.marker.args.isEmpty) method.decl = .ok text)
        (methods.filter (Forwarded ·.decl)) texts) ↔
        (r.marker.args = [] → ∀ method ∈ methods, Forwarded method.decl → Named method.decl) := by
    cases r.marker.args with
    | nil => simp [forward_body_ok_iff, List.forall₂_and_left, forall₂_map_iff]
    | cons arg args => simp [forward, forall₂_ok_iff, -Except.ok.injEq]
  constructor
  · rintro ⟨codes, ok⟩
    obtain ⟨known, settings, record, methods, parts, found, nonempty, made, _⟩ := methodCalls_ok_iff.mp ok
    exact ⟨known, settings, record, methods, found, nonempty, (texts settings methods).mp ⟨parts, made⟩⟩
  · rintro ⟨known, settings, record, methods, found, nonempty, named⟩
    obtain ⟨parts, made⟩ := (texts settings methods).mpr named
    exact ⟨_, methodCalls_ok_iff.mpr ⟨known, settings, record, methods, parts, found, nonempty, made, rfl⟩⟩

theorem declarations_ok_iff (only : r.marker.args = [declarationsOnly]) :
    methodCalls r = .ok codes ↔ ∃ settings record methods,
      Resolved r.unit r.decl settings record methods ∧ methods ≠ [] ∧
        codes = [.ofText (String.join ((methods.filter (Forwarded ·.decl)).map fun method =>
          signature method.decl settings.interface ++ ";\n"))] := by
  simp [methodCalls_ok_iff, only, forward, forall₂_ok_iff, -Except.ok.injEq]

theorem definitions_ok_iff (plain : r.marker.args = []) {settings : Carrier} {record : Declared}
    {methods : List Declared} (found : Resolved r.unit r.decl settings record methods) (nonempty : methods ≠ []) :
    methodCalls r = .ok codes ↔ (∀ method ∈ methods.filter (Forwarded ·.decl), Named method.decl) ∧
      codes = [.ofText (String.join ((methods.filter (Forwarded ·.decl)).map fun method =>
        definition settings.interface method.decl ((params method.decl).map callArgument)))] := by
  rw [methodCalls_ok_iff, plain]
  simp only [List.isEmpty_nil, Bool.not_true, forward_body_ok_iff, List.forall₂_and_left, forall₂_map_iff]
  constructor
  · rintro ⟨_, settings, record, methods, texts, again, _, ⟨named, rfl⟩, rfl⟩
    obtain ⟨rfl, rfl, rfl⟩ := found.unique again
    exact ⟨named, rfl⟩
  · rintro ⟨named, rfl⟩
    exact ⟨by simp, settings, record, methods, _, found, nonempty, ⟨named, rfl⟩, rfl⟩

end

/-- For a carrier without an interface class, a report is given exactly if declarations are generated, and
both have the signatures of all methods that are passed on, in order. The definitions are generated unless
one of these methods has an unnamed parameter, and each of them passes on every parameter once in order. -/
theorem report_lists_forwarded {u : SourceUnit} {d : Declared} {plugin : String} {reporting declaring defining : Marker}
    (unasked : reporting.args = []) (only : declaring.args = [declarationsOnly]) (whole : defining.args = [])
    (direct : ∀ p ∈ d.decl.templateParams, p.name ≠ "interface") :
    ((∃ codes, report ⟨u, d, reporting, plugin⟩ = .ok codes) ↔
      ∃ codes, methodCalls ⟨u, d, declaring, plugin⟩ = .ok codes) ∧
    ∀ codes, report ⟨u, d, reporting, plugin⟩ = .ok codes →
      ∃ settings record methods, Resolved u d.decl settings record methods ∧
        let listed := methods.filter (Forwarded ·.decl)
        let signatures := listed.map (signature ·.decl none)
        codes = [.ofText (listing settings signatures)] ∧
        methodCalls ⟨u, d, declaring, plugin⟩ = .ok [.ofText (String.join (signatures.map (· ++ ";\n")))] ∧
        ((∃ fault, methodCalls ⟨u, d, defining, plugin⟩ = .error fault) ↔
          ∃ method ∈ listed, ∃ p ∈ params method.decl, p.name = "") ∧
        ((∀ method ∈ listed, ∀ p ∈ params method.decl, p.name ≠ "") →
          ∃ calls, List.Forall₂ (fun method call => List.Forall₂ Passes (params method.decl) call) listed calls ∧
            methodCalls ⟨u, d, defining, plugin⟩ =
              .ok [.ofText (String.join (listed.zipWith (fun method => definition none method.decl) calls))]) := by
  constructor
  · rw [report_succeeds_iff, methodCalls_succeeds_iff]
    simp [unasked, only, Request.decl]
  · intro codes ok
    obtain ⟨_, settings, record, methods, found, nonempty, rfl⟩ := report_ok_iff.mp ok
    have unqualified := interface_of_carrier direct found.read
    have defined {codes : List Code} := @definitions_ok_iff ⟨u, d, defining, plugin⟩ codes whole _ _ _ found nonempty
    rw [unqualified] at defined
    refine ⟨settings, record, methods, found, rfl, ?_, ?_, fun named => ?_⟩
    · refine (declarations_ok_iff only).mpr ⟨settings, record, methods, found, nonempty, ?_⟩
      rw [unqualified, List.map_map]
      rfl
    · rw [exists_error_iff]
      simp [defined, Named, and_assoc]
    · refine ⟨_, passes_calls _, defined.mpr ⟨named, ?_⟩⟩
      rw [List.zipWith_map_right, List.zipWith_self]

/-- A record as it is before its members are known. -/
def bare (name : String) (ps : List TemplateParam) : Declaration :=
  ⟨.classType, name, name, [], [], ⟨⟨"s"⟩, 1, 1⟩, [], ps, .publicMember, none, [], .record ⟨.classTag, []⟩⟩

/-- A member function of the class `Impl`, which is the first declaration of its unit. -/
def implMember (name : String) (access : Access) (annotations : List String) (ps : List Param) : Declaration :=
  ⟨.method, name, "Impl::" ++ name, [], ["Impl"], ⟨⟨"s"⟩, 1, 1⟩, annotations, [], access, some 0, [],
    .function ⟨some "int", ps, false, false, false, false, false, false, false, false, false, false⟩⟩

/-- The carrier of `Impl`, which stands behind it and its members. -/
def implCarrier (members : List Declaration) : Declared :=
  ⟨members.length + 1, bare "Carrier" [⟨.typeParam, "impl", some "Impl", false⟩]⟩

def implUnit (members : List Declaration) : SourceUnit :=
  (bare "Impl" [] :: members ++ [(implCarrier members).decl]).foldl SourceUnit.push (.empty ⟨"s"⟩ [])

/-- A member that is passed on, one that is to be skipped and one that is not public. -/
def threeMembers : List Declaration :=
  [implMember "take" .publicMember [] [⟨"int&&", "n", "int&& n", none, true, false, false⟩],
    implMember "keep" .publicMember ["skip_pimpl"] [], implMember "count" .privateMember [] []]

theorem report_lists_forwarded_take :
    let reporting : Marker := ⟨⟨"reflect-for-pimpl"⟩, [], ""⟩
    let declaring : Marker := ⟨⟨"inject-pimpl-method-calls"⟩, [declarationsOnly], ""⟩
    let codes := [Code.ofText "// pimpl: Impl, 1 forwarded method(s)\n//   int take(int&& n)\n"]
    report ⟨implUnit threeMembers, implCarrier threeMembers, reporting, "p"⟩ = .ok codes ∧
    ∃ codes, methodCalls ⟨implUnit threeMembers, implCarrier threeMembers, declaring, "p"⟩ = .ok codes := by
  intro reporting declaring codes
  have reported : report ⟨implUnit threeMembers, implCarrier threeMembers, reporting, "p"⟩ = .ok codes := by
    decide +kernel
  have direct : ∀ p ∈ (implCarrier threeMembers).decl.templateParams, p.name ≠ "interface" := by decide
  exact ⟨reported, (@report_lists_forwarded _ _ "p" reporting declaring reporting rfl rfl rfl direct).1.mp ⟨_, reported⟩⟩

/-! ### Classes of which nothing is passed on -/

theorem listing_empty_iff {settings : Carrier} {signatures : List String} :
    listing settings signatures = listing settings [] ↔ signatures = [] := by
  cases signatures with
  | nil => simp
  | cons signature rest =>
    -- No number is shorter than the one of the empty list, and there is a line more.
    have number : 0 < (rest.length + 1).repr.length := Nat.length_repr_pos
    have zero : (Nat.repr 0).length = 1 := rfl
    have line : "\n".length = 1 := rfl
    simp only [reduceCtorEq, iff_false]
    intro same
    have lengths := congrArg String.length same
    simp [listing, String.length_append, String.join_cons] at lengths
    omega

theorem forward_ne_empty {interface : Option String} {only : Bool} {method : Declaration} {text : String}
    (made : forward interface only method = .ok text) : text ≠ "" := by
  cases only with
  | true =>
    cases made
    simp
  | false =>
    obtain ⟨_, rfl⟩ := forward_body_ok_iff.mp made
    simp [definition]

theorem texts_ne_empty {interface : Option String} {only : Bool} {methods : List Declared} {texts : List String}
    (made : List.Forall₂ (fun method text => forward interface only method.decl = .ok text) methods texts) :
    ∀ text ∈ texts, text ≠ "" := by
  induction made with
  | nil => simp
  | cons here _ ih => exact List.forall_mem_cons.mpr ⟨forward_ne_empty here, ih⟩

theorem ofText_iff {text other : String} : [Code.ofText text] = [Code.ofText other] ↔ text = other := by
  simp [Code.ofText]

theorem join_empty_iff {texts : List String} (full : ∀ text ∈ texts, text ≠ "") : String.join texts = "" ↔ texts = [] := by
  cases texts with
  | nil => simp
  | cons text rest => simp [String.join_cons, full text List.mem_cons_self]

theorem forwarded_empty_iff {methods : List Declared} :
    methods.filter (Forwarded ·.decl) = [] ↔ ∀ method ∈ methods, ¬ Forwarded method.decl := by
  simp [List.filter_eq_nil_iff]

/-- What a class must have is a method of any kind, so that a request may succeed with nothing to be passed
on. What is generated is then empty, and only then. -/
theorem generated_empty_iff (r : Request) :
    ((∃ codes, report r = .ok codes) ↔ r.marker.args = [] ∧
      ∃ settings record methods, Resolved r.unit r.decl settings record methods ∧ methods ≠ []) ∧
    ((∃ codes, methodCalls r = .ok codes) ↔ (∀ arg ∈ r.marker.args, arg = declarationsOnly) ∧
      ∃ settings record methods, Resolved r.unit r.decl settings record methods ∧ methods ≠ [] ∧
        (r.marker.args = [] → ∀ method ∈ methods, Forwarded method.decl → Named method.decl)) ∧
    ∀ settings record methods, Resolved r.unit r.decl settings record methods →
      (∀ codes, report r = .ok codes →
        (codes = [.ofText (listing settings [])] ↔ ∀ method ∈ methods, ¬ Forwarded method.decl)) ∧
      ∀ codes, methodCalls r = .ok codes →
        (codes = [.ofText ""] ↔ ∀ method ∈ methods, ¬ Forwarded method.decl) := by
  refine ⟨report_succeeds_iff, methodCalls_succeeds_iff,
    fun settings record methods found => ⟨fun codes ok => ?_, fun codes ok => ?_⟩⟩
  · obtain ⟨_, _, _, _, again, _, rfl⟩ := report_ok_iff.mp ok
    obtain ⟨rfl, rfl, rfl⟩ := found.unique again
    rw [ofText_iff, listing_empty_iff, List.map_eq_nil_iff, forwarded_empty_iff]
  · obtain ⟨_, _, _, _, texts, again, _, made, rfl⟩ := methodCalls_ok_iff.mp ok
    obtain ⟨rfl, rfl, rfl⟩ := found.unique again
    rw [ofText_iff, join_empty_iff (texts_ne_empty made), ← forwarded_empty_iff, ← List.length_eq_zero_iff,
      ← made.length_eq, List.length_eq_zero_iff]

theorem generated_empty_iff_take :
    let r : Request := ⟨implUnit threeMembers, implCarrier threeMembers, ⟨⟨"inject-pimpl-method-calls"⟩, [], ""⟩, "p"⟩
    methodCalls r = .ok [.ofText "int take(int&& n)\n\x7b\n return impl_->take(std::move(n));\n\x7d\n"] ∧
    ∃ settings record methods, Resolved r.unit r.decl settings record methods ∧ ∃ method ∈ methods, Forwarded method.decl := by
  intro r
  have made : methodCalls r =
      .ok [.ofText "int take(int&& n)\n\x7b\n return impl_->take(std::move(n));\n\x7d\n"] := by
    decide +kernel
  obtain ⟨_, settings, record, methods, found, _⟩ := (generated_empty_iff r).2.1.mp ⟨_, made⟩
  have empty := ((generated_empty_iff r).2.2 settings record methods found).2 _ made
  refine ⟨made, settings, record, methods, found, ?_⟩
  by_contra! none
  exact absurd (empty.mpr none) (by decide)

theorem private_method_suffices :
    let members := [implMember "hidden" .privateMember [] []]
    let marker (name : String) : Marker := ⟨⟨name⟩, [], ""⟩
    report ⟨implUnit members, implCarrier members, marker "reflect-for-pimpl", "p"⟩ =
      .ok [.ofText "// pimpl: Impl, 0 forwarded method(s)\n"] ∧
    methodCalls ⟨implUnit members, implCarrier members, marker "inject-pimpl-method-calls", "p"⟩ = .ok [.ofText ""] ∧
    ∀ declared ∈ (implUnit members).entries, ¬ Forwarded declared.decl := by
  decide +kernel

end MarkerGen.Pimpl
