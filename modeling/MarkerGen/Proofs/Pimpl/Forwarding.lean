import Mathlib.Data.List.Forall2
import MarkerGen.Pimpl.Generate
import MarkerGen.Proofs.Chars.Ends

/-! What a carrier is turned into. A request succeeds if the class that the carrier names is there with all
its members, one of them a method, and what is generated comes from the methods to be passed on, one part
for each of them in order. -/
namespace MarkerGen

theorem bind_ok_iff {ε α β : Type} {first : Except ε α} {next : α → Except ε β} {result : β} :
    first >>= next = .ok result ↔ ∃ value, first = .ok value ∧ next value = .ok result := by
  cases first <;> simp [bind, Except.bind]

theorem exists_error_iff {ε α : Type} {result : Except ε α} :
    (∃ error, result = .error error) ↔ ¬ ∃ value, result = .ok value := by
  cases result <;> simp

theorem mapM_cons_ok_iff {ε α β : Type} {f : α → Except ε β} {item : α} {items : List α} {results : List β} :
    (item :: items).mapM f = .ok results ↔
      ∃ result, f item = .ok result ∧ ∃ others, items.mapM f = .ok others ∧ result :: others = results := by
  rw [List.mapM_cons]
  simp only [bind_ok_iff, pure, Except.pure, Except.ok.injEq]

theorem mapM_ok_iff {ε α β : Type} {f : α → Except ε β} {items : List α} {results : List β} :
    items.mapM f = .ok results ↔ List.Forall₂ (fun item result => f item = .ok result) items results := by
  induction items generalizing results with
  | nil => simp [pure, Except.pure, eq_comm]
  | cons item items ih =>
    simp only [mapM_cons_ok_iff, ih, List.forall₂_cons_left_iff]
    constructor
    · rintro ⟨result, here, others, later, rfl⟩
      exact ⟨result, others, here, later, rfl⟩
    · rintro ⟨result, others, here, later, rfl⟩
      exact ⟨result, here, others, later, rfl⟩

theorem forall₂_map_iff {α β : Type} {f : α → β} {items : List α} {results : List β} :
    List.Forall₂ (fun item result => result = f item) items results ↔ results = items.map f := by
  rw [eq_comm, ← List.forall₂_eq_eq_eq, List.forall₂_map_left_iff]
  simp only [eq_comm]

theorem forall₂_ok_iff {ε α β : Type} {f : α → β} {items : List α} {results : List β} :
    List.Forall₂ (fun item result => (.ok (f item) : Except ε β) = .ok result) items results ↔ results = items.map f := by
  rw [← forall₂_map_iff]
  simp only [Except.ok.injEq, eq_comm]

theorem complaining_ok_iff {α : Type} {result : Except GenerationError α} {value : α} :
    complaining result = .ok value ↔ result = .ok value := by
  cases result <;> simp [complaining]

theorem looking_ok_iff {α : Type} {result : Except MissingMember α} {value : α} :
    looking result = .ok value ↔ result = .ok value := by
  cases result <;> simp [looking]

theorem SourceUnit.anyMethod_of_members {u : SourceUnit} {ids : List Nat} {members : List Declared}
    (found : ids.mapM u.member = .ok members) : u.anyMethod ids = .ok (members.any (·.decl.kind == .method)) := by
  induction ids generalizing members with
  | nil =>
    cases found
    rfl
  | cons id ids ih =>
    obtain ⟨member, here, others, later, rfl⟩ := mapM_cons_ok_iff.mp found
    rw [anyMethod, here, List.any_cons]
    dsimp only
    split
    next method => simp [method]
    next other => simp [other, ih later]

theorem SourceUnit.methods_ok_iff {u : SourceUnit} {d : Declaration} {methods : List Declared} :
    u.methods d = .ok methods ↔
      ∃ members, d.children.mapM u.member = .ok members ∧ members.filter (·.decl.kind == .method) = methods := by
  rw [SourceUnit.methods, members]
  cases d.children.mapM u.member <;> simp [Except.map]

namespace Pimpl

/-- A method that is passed on: a public one, neither constructor nor destructor nor operator, of which no
annotation starts with `skip_pimpl`. -/
structure Forwarded (d : Declaration) : Prop where
  access : d.access = .publicMember
  ordinary : ∃ info, d.detail = .function info ∧
    info.isConstructor = false ∧ info.isDestructor = false ∧ info.isOperator = false
  wanted : ∀ token ∈ d.annotations, ¬ "skip_pimpl".toList <+: token.toList

theorem isForwardable_iff {d : Declaration} : isForwardable d = true ↔ Forwarded d := by
  have skipped : d.hasAnnotation "skip_pimpl" = false ↔ ∀ token ∈ d.annotations, ¬ "skip_pimpl".toList <+: token.toList := by
    simp only [Declaration.hasAnnotation, List.any_eq_false, Text.startsWith, Chars.startsWith_iff]
  have ordinary : (d.detail.function?.any fun info =>
      !info.isConstructor && !info.isDestructor && !info.isOperator) = true ↔ ∃ info, d.detail = .function info ∧
        info.isConstructor = false ∧ info.isDestructor = false ∧ info.isOperator = false := by
    cases d.detail <;> simp [Detail.function?, and_assoc]
  rw [isForwardable, Bool.and_eq_true, Bool.and_eq_true, beq_iff_eq, ordinary, Bool.not_eq_true', skipped]
  exact ⟨fun ⟨⟨access, wanted⟩, ordinary⟩ => ⟨access, ordinary, wanted⟩,
    fun ⟨access, ordinary, wanted⟩ => ⟨⟨access, wanted⟩, ordinary⟩⟩

instance (d : Declaration) : Decidable (Forwarded d) := decidable_of_iff _ isForwardable_iff

section
variable {α : Type} {u : SourceUnit} {make : Declared → Except Fault α} {parts : List α} {ids : List Nat}

/-- Where no member is missing, a part is made for each method to be passed on, in order. -/
theorem forwardableAt_eq {members : List Declared} (found : ids.mapM u.member = .ok members) :
    forwardableAt u make ids = ((members.filter (·.decl.kind == .method)).filter (Forwarded ·.decl)).mapM make := by
  induction ids generalizing members with
  | nil =>
    cases found
    rfl
  | cons id ids ih =>
    obtain ⟨member, here, others, later, rfl⟩ := mapM_cons_ok_iff.mp found
    rw [forwardableAt, here, ih later]
    by_cases wanted : member.decl.kind = .method ∧ Forwarded member.decl
    · simp [looking, bind, Except.bind, wanted.1, wanted.2, isForwardable_iff]
    · have left : ((member :: others).filter (·.decl.kind == .method)).filter (Forwarded ·.decl) =
          (others.filter (·.decl.kind == .method)).filter (Forwarded ·.decl) := by
        rw [List.filter_filter, List.filter_filter, List.filter_cons_of_neg (by simpa [and_comm] using wanted)]
      rw [left]
      simp [looking, bind, Except.bind, isForwardable_iff, wanted]

theorem members_of_forwardableAt (made : forwardableAt u make ids = .ok parts) :
    ∃ members, ids.mapM u.member = .ok members := by
  induction ids generalizing parts with
  | nil => exact ⟨[], rfl⟩
  | cons id ids ih =>
    rw [forwardableAt, bind_ok_iff] at made
    obtain ⟨member, here, made⟩ := made
    obtain ⟨parts, later⟩ : ∃ parts, forwardableAt u make ids = .ok parts := by
      split at made
      · simp only [bind_ok_iff] at made
        obtain ⟨_, _, parts, later, _⟩ := made
        exact ⟨parts, later⟩
      · exact ⟨_, made⟩
    obtain ⟨members, found⟩ := ih later
    exact ⟨_, mapM_cons_ok_iff.mpr ⟨member, looking_ok_iff.mp here, members, found, rfl⟩⟩

end

/-- A carrier with the class that it names and the methods of that class. -/
structure Resolved (u : SourceUnit) (d : Declaration) (settings : Carrier) (record : Declared)
    (methods : List Declared) : Prop where
  read : carrier d = .ok settings
  defined : settings.record u = .ok record
  members : u.methods record.decl = .ok methods

theorem Resolved.unique {u : SourceUnit} {d : Declaration} {settings other : Carrier} {record found : Declared}
    {methods listed : List Declared} (first : Resolved u d settings record methods)
    (second : Resolved u d other found listed) : settings = other ∧ record = found ∧ methods = listed := by
  obtain rfl := Except.ok.inj (first.read.symm.trans second.read)
  obtain rfl := Except.ok.inj (first.defined.symm.trans second.defined)
  exact ⟨rfl, rfl, Except.ok.inj (first.members.symm.trans second.members)⟩

/-! ### The interface class -/

theorem interface_of_readParam {owner : String} {found next : Option String × Option String} {p : TemplateParam}
    (other : p.name ≠ "interface") (read : readParam owner found p = .ok next) : next.2 = found.2 := by
  unfold readParam at read
  dsimp only at read
  split at read
  · cases read
  · split at read
    · cases read
    · split at read
      · cases read
        rfl
      · cases read

theorem interface_of_params {owner : String} {found last : Option String × Option String} {ps : List TemplateParam}
    (others : ∀ p ∈ ps, p.name ≠ "interface") (read : ps.foldlM (readParam owner) found = .ok last) :
    last.2 = found.2 := by
  induction ps generalizing found with
  | nil =>
    cases read
    rfl
  | cons p ps ih =>
    obtain ⟨here, later⟩ := List.forall_mem_cons.mp others
    rw [List.foldlM_cons, bind_ok_iff] at read
    obtain ⟨next, first, rest⟩ := read
    exact (ih later rest).trans (interface_of_readParam here first)

theorem interface_of_carrier {d : Declaration} {settings : Carrier}
    (direct : ∀ p ∈ d.templateParams, p.name ≠ "interface") (read : carrier d = .ok settings) :
    settings.interface = none := by
  unfold carrier at read
  split at read
  · cases read
  · rw [bind_ok_iff] at read
    obtain ⟨last, params, made⟩ := read
    split at made
    · cases made
    · cases made
      exact interface_of_params direct params

section
variable {r : Request} {settings : Carrier} {record : Declared} {codes : List Code}

theorem resolve_ok_iff :
    resolve r = .ok (settings, record) ↔ carrier r.decl = .ok settings ∧ settings.record r.unit = .ok record ∧
      r.unit.anyMethod record.decl.children = .ok true := by
  simp only [resolve, bind_ok_iff, complaining_ok_iff, looking_ok_iff]
  constructor
  · rintro ⟨settings, read, record, defined, found, looked, same⟩
    split at same
    next any =>
      cases same
      exact ⟨read, defined, any ▸ looked⟩
    next => cases same
  · rintro ⟨read, defined, any⟩
    exact ⟨settings, read, record, defined, true, any, rfl⟩

/-- A part for each method to be passed on is all that a request needs once the class is found. -/
theorem parts_iff {α : Type} {make : Declared → Except Fault α} {parts : List α} :
    resolve r = .ok (settings, record) ∧ forwardable r.unit record.decl make = .ok parts ↔
      ∃ methods, Resolved r.unit r.decl settings record methods ∧ methods ≠ [] ∧
        List.Forall₂ (fun method part => make method = .ok part) (methods.filter (Forwarded ·.decl)) parts := by
  rw [resolve_ok_iff]
  constructor
  · rintro ⟨⟨read, defined, any⟩, made⟩
    obtain ⟨members, found⟩ := members_of_forwardableAt made
    refine ⟨_, ⟨read, defined, SourceUnit.methods_ok_iff.mpr ⟨members, found, rfl⟩⟩, ?_, ?_⟩
    · rw [SourceUnit.anyMethod_of_members found, Except.ok.injEq, List.any_eq_true] at any
      obtain ⟨method, member, kind⟩ := any
      exact List.ne_nil_of_mem (List.mem_filter.mpr ⟨member, kind⟩)
    · rwa [forwardable, forwardableAt_eq found, mapM_ok_iff] at made
  · rintro ⟨_, ⟨read, defined, listed⟩, nonempty, made⟩
    obtain ⟨members, found, rfl⟩ := SourceUnit.methods_ok_iff.mp listed
    refine ⟨⟨read, defined, ?_⟩, ?_⟩
    · obtain ⟨method, member⟩ := List.exists_mem_of_ne_nil _ nonempty
      rw [SourceUnit.anyMethod_of_members found, Except.ok.injEq, List.any_eq_true]
      exact ⟨method, List.mem_of_mem_filter member, (List.mem_filter.mp member).2⟩
    · rwa [forwardable, forwardableAt_eq found, mapM_ok_iff]

/-- The text of a report on some signatures. -/
def listing (settings : Carrier) (signatures : List String) : String :=
  "// pimpl: " ++ settings.implementation ++ (settings.interface.map (" behind " ++ ·)).getD "" ++ ", " ++
    toString signatures.length ++ " forwarded method(s)\n" ++
    String.join (signatures.map fun signature => "//   " ++ signature ++ "\n")

theorem report_ok_iff :
    report r = .ok codes ↔ r.marker.args = [] ∧ ∃ settings record methods,
      Resolved r.unit r.decl settings record methods ∧ methods ≠ [] ∧
        codes = [.ofText (listing settings ((methods.filter (Forwarded ·.decl)).map (signature ·.decl none)))] := by
  unfold report
  cases r.marker.args with
  | cons arg args => simp [throw, throwThe, MonadExceptOf.throw]
  | nil =>
    simp only [bind_ok_iff, true_and, Prod.exists]
    constructor
    · rintro ⟨settings, record, resolved, signatures, made, same⟩
      obtain ⟨methods, found, nonempty, parts⟩ := parts_iff.mp ⟨resolved, made⟩
      rw [forall₂_ok_iff] at parts
      refine ⟨settings, record, methods, found, nonempty, ?_⟩
      rw [← parts, ← Except.ok.inj same, listing]
      cases settings.interface <;> rfl
    · rintro ⟨settings, record, methods, found, nonempty, rfl⟩
      obtain ⟨resolved, made⟩ := parts_iff.mpr ⟨methods, found, nonempty, forall₂_ok_iff.mpr rfl⟩
      refine ⟨settings, record, resolved, _, made, ?_⟩
      rw [listing]
      cases settings.interface <;> rfl

/-- The argument that asks for declarations without bodies. -/
def declarationsOnly : Argument := ⟨none, "without_method_body"⟩

theorem withoutBody_ok_iff {args : List Argument} {only : Bool} :
    withoutBody args = .ok only ↔ (∀ arg ∈ args, arg = declarationsOnly) ∧ only = !args.isEmpty := by
  have flag (arg : Argument) : arg.name = none ∧ arg.value = "without_method_body" ↔ arg = declarationsOnly := by
    cases arg
    simp [declarationsOnly]
  have folded (start : Bool) : args.foldlM (fun _ arg =>
      if arg.name = none ∧ arg.value = "without_method_body" then .ok true
      else .error (.invalidInput ("unknown argument '" ++ arg.name.getD "" ++ "' with value '" ++ arg.value ++ "'"))) start =
        (.ok only : Except GenerationError Bool) ↔ (∀ arg ∈ args, arg = declarationsOnly) ∧ only = (start || !args.isEmpty) := by
    induction args generalizing start with
    | nil => simp [pure, Except.pure, eq_comm]
    | cons arg args ih =>
      rw [List.foldlM_cons, bind_ok_iff]
      by_cases same : arg = declarationsOnly
      · rw [if_pos ((flag arg).mpr same)]
        simp [same, ih]
      · rw [if_neg fun both => same ((flag arg).mp both)]
        simp [same]
  rw [withoutBody, folded, Bool.false_or]

theorem methodCalls_ok_iff :
    methodCalls r = .ok codes ↔ (∀ arg ∈ r.marker.args, arg = declarationsOnly) ∧ ∃ settings record methods texts,
      Resolved r.unit r.decl settings record methods ∧ methods ≠ [] ∧
        List.Forall₂ (fun method text => forward settings.interface (!r.marker.args.isEmpty) method.decl = .ok text)
          (methods.filter (Forwarded ·.decl)) texts ∧
        codes = [.ofText (String.join texts)] := by
  simp only [methodCalls, bind_ok_iff, complaining_ok_iff, withoutBody_ok_iff, Prod.exists]
  constructor
  · rintro ⟨only, ⟨known, rfl⟩, settings, record, resolved, texts, made, same⟩
    obtain ⟨methods, found, nonempty, parts⟩ := parts_iff.mp ⟨resolved, made⟩
    simp only [complaining_ok_iff] at parts
    exact ⟨known, settings, record, methods, texts, found, nonempty, parts, (Except.ok.inj same).symm⟩
  · rintro ⟨known, settings, record, methods, texts, found, nonempty, parts, rfl⟩
    simp only [← complaining_ok_iff] at parts
    obtain ⟨resolved, made⟩ := parts_iff.mpr ⟨methods, found, nonempty, parts⟩
    exact ⟨_, ⟨known, rfl⟩, settings, record, resolved, texts, made, rfl⟩

end

end Pimpl

end MarkerGen
