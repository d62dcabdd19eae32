import MarkerGen.Distinct
import MarkerGen.Marker
import MarkerGen.SourceUnit

/-! The markers of a unit. A declaration gives one match for each tag among its annotations,
the first one; annotations that are no markers, or malformed ones, give none. -/
namespace MarkerGen

structure Match where
  declared : Declared
  marker : Marker
  deriving DecidableEq

namespace Scan

/-- The marker of a token, if it is a well-formed one. -/
def marker? (lead token : String) : Option Marker :=
  match Marker.parse lead token with
  | .ok marker? => marker?
  | .error _ => none

def sameTag (a b : Marker) : Bool := a.tag == b.tag

/-- The markers of a declaration, the first one of each tag. -/
def markers (lead : String) (d : Declaration) : List Marker :=
  firstOfEach sameTag [] (d.annotations.filterMap (marker? lead))

def matchesOf (lead : String) (u : SourceUnit) : List Match :=
  u.entries.flatMap fun declared => (markers lead declared.decl).map (⟨declared, ·⟩)

/-- Where a scan that gives one match at a time stands: the declaration and the token that it reads
next, and the tags that this declaration has given so far. -/
structure Cursor where
  declaration : Nat
  token : Nat
  seen : List Tag
  deriving DecidableEq, Repr

namespace Cursor

def start : Cursor := ⟨0, 0, []⟩

def left (u : SourceUnit) (c : Cursor) : Nat × Nat :=
  (u.size - c.declaration, ((u.get? c.declaration).map (·.decl.annotations.length)).getD 0 - c.token)

def Later (u : SourceUnit) : Cursor → Cursor → Prop := InvImage (Prod.Lex (· < ·) (· < ·)) (left u)

theorem Later.trans {u : SourceUnit} {a b c : Cursor} (first : Later u a b) (second : Later u b c) : Later u a c := by
  simp only [Later, InvImage, Prod.lex_def] at *
  omega

theorem later_declaration {u : SourceUnit} {c : Cursor} {declared : Declared}
    (found : u.get? c.declaration = some declared) : Later u ⟨c.declaration + 1, 0, []⟩ c := by
  obtain ⟨_, present, _⟩ := Option.map_eq_some_iff.mp found
  have inside : c.declaration < u.size := (Array.getElem?_eq_some_iff.mp present).1
  exact .left _ _ (Nat.sub_succ_lt_self _ _ inside)

theorem later_token {u : SourceUnit} {c : Cursor} {declared : Declared} {token : String}
    (found : u.get? c.declaration = some declared) (more : declared.decl.annotations[c.token]? = some token)
    (seen : List Tag) : Later u ⟨c.declaration, c.token + 1, seen⟩ c := by
  have inside := (List.getElem?_eq_some_iff.mp more).1
  have tokens : ((u.get? c.declaration).map (·.decl.annotations.length)).getD 0 = declared.decl.annotations.length := by
    rw [found]
    rfl
  exact .right _ (by dsimp only; omega)

def next? (lead : String) (u : SourceUnit) (c : Cursor) : Option (Match × Cursor) :=
  match _found : u.get? c.declaration with
  | none => none
  | some declared =>
    match _more : declared.decl.annotations[c.token]? with
    | none => next? lead u ⟨c.declaration + 1, 0, []⟩
    | some token =>
      match marker? lead token with
      | none => next? lead u ⟨c.declaration, c.token + 1, c.seen⟩
      | some marker =>
        if c.seen.contains marker.tag then next? lead u ⟨c.declaration, c.token + 1, c.seen⟩
        else some (⟨declared, marker⟩, ⟨c.declaration, c.token + 1, marker.tag :: c.seen⟩)
termination_by left u c
decreasing_by
  · exact later_declaration _found
  · exact later_token _found _more _
  · exact later_token _found _more _

theorem later_of_next? {lead : String} {u : SourceUnit} {c after : Cursor} {m : Match}
    (next : c.next? lead u = some (m, after)) : Later u after c := by
  fun_induction next? lead u c with
  | case1 => cases next
  | case2 c declared found _ ih => exact (ih next).trans (later_declaration found)
  | case3 c declared found token more _ ih => exact (ih next).trans (later_token found more _)
  | case4 c declared found token more _ _ _ ih => exact (ih next).trans (later_token found more _)
  | case5 c declared found token more =>
    cases next
    exact later_token found more _

def drain (lead : String) (u : SourceUnit) (c : Cursor) : List Match :=
  match _next : c.next? lead u with
  | none => []
  | some (m, after) => m :: drain lead u after
termination_by left u c
decreasing_by exact later_of_next? _next

end Cursor

end Scan

end MarkerGen
