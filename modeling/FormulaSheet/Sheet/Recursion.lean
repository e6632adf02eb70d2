import FormulaSheet.SymbolTable

set_option autoImplicit false

namespace FormulaSheet

mutual

def Part.calls : Part → List Callee
  | .literal .. | .name _ | .operator _ => []
  | .bracket _ inside => Formula.calls inside
  | .call callee arguments => callee :: Formula.argumentCalls arguments

def Formula.calls : List Part → List Callee
  | [] => []
  | part :: rest => part.calls ++ Formula.calls rest

def Formula.argumentCalls : List (List Part) → List Callee
  | [] => []
  | argument :: rest => Formula.calls argument ++ Formula.argumentCalls rest

end

namespace Definition

def calls (definition : Definition) : List Callee :=
  Formula.calls definition.body

def following : List Definition → Nat
  | [] => 0
  | definition :: rest => 1 + definition.calls.length + following rest

theorem following_filter_le (p : Definition → Bool) (definitions : List Definition) :
    following (definitions.filter p) ≤ following definitions := by
  induction definitions with
  | nil => exact Nat.le_refl _
  | cons d ds ih =>
    cases hp : p d with
    | true =>
      rw [List.filter_cons_of_pos hp]
      exact Nat.add_le_add_left ih _
    | false =>
      rw [List.filter_cons_of_neg (by simp [hp])]
      exact Nat.le_trans ih (Nat.le_add_left _ _)

theorem following_filter_lt {definitions : List Definition} {definition : Definition}
    {p : Definition → Bool} (h : definitions.find? p = some definition) :
    following (definitions.filter (!p ·)) + 1 + definition.calls.length ≤
      following definitions := by
  induction definitions with
  | nil => contradiction
  | cons d ds ih =>
    cases hp : p d with
    | true =>
      rw [List.find?_cons_of_pos hp] at h
      cases h
      rw [List.filter_cons_of_neg (by simp [hp])]
      have := following_filter_le (!p ·) ds
      simp only [following]
      omega
    | false =>
      rw [List.find?_cons_of_neg (by simp [hp])] at h
      rw [List.filter_cons_of_pos (by simp [hp])]
      have := ih h
      simp only [following]
      omega

end Definition

def Callee.isTo (callee : Callee) (definition : Definition) : Bool :=
  definition.name = callee.name

def Callee.others (callee : Callee) (definitions : List Definition) : List Definition :=
  definitions.filter (!callee.isTo ·)

/-- The first call of `root` that is met when calls are followed, the last found first. Each
definition is followed once. -/
def callTo (root : String) (unexplored : List Definition) (pending : List Callee) :
    Option Callee :=
  match pending with
  | [] => none
  | callee :: rest =>
    if callee.name = root then some callee
    else
      match _found : unexplored.find? callee.isTo with
      | none => callTo root unexplored rest
      | some definition =>
        callTo root (callee.others unexplored) (definition.calls.reverse ++ rest)
termination_by Definition.following unexplored + pending.length
decreasing_by
  · simp
  · have := Definition.following_filter_lt _found
    simp only [Callee.others, List.length_append, List.length_reverse, List.length_cons]
    omega

def Definition.selfCall? (definition : Definition) (users : List Definition) : Option Callee :=
  callTo definition.name users definition.calls.reverse

end FormulaSheet
