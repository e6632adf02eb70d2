import FormulaSheet.Formula.Build

set_option autoImplicit false

namespace FormulaSheet

open Formula (LineEnd lineEnd closeGroup)

def Shape.arguments? : Shape → Option Capture
  | call _ arguments | query _ arguments => some arguments
  | _ => none

-- Neither a definition nor an equals sign.
def Shape.isInner : Shape → Bool
  | definition _ | equals => false
  | _ => true

-- `more` is what may follow a value; `lines` counts the lines that are not empty.
inductive Phrase where
  | value
  | more
  | formula
  | lines (formulas : Nat)

namespace Phrase

def Signs (tokens : List Token) : Prop :=
  ∀ token ∈ tokens, token.shape = .operator .subtract

-- Values stand side by side, or with one operator and any signs between them.
inductive Joint : List Token → Prop
  | none : Joint []
  | operator {token : Token} {operation : Operation} {signs : List Token} :
      token.shape = .operator operation → Signs signs → Joint (token :: signs)

inductive Spells (source : String) : Phrase → List Token → Prop
  | number {token : Token} {value : Float} :
      token.shape = .number value → Spells source .value [token]
  | name {token : Token} : token.shape = .name → Spells source .value [token]
  | group {opening closing : Token} {inside : List Token} :
      opening.shape = .leftParen → closing.shape = .rightParen →
        Spells source (.lines 1) inside → Spells source .value (opening :: (inside ++ [closing]))
  | call {token : Token} {arguments : Capture} {count : Nat} :
      token.shape.arguments? = some arguments →
        (Token.read .arguments source arguments.offset arguments.stop).failure = none →
        Spells source (.lines count)
          (Token.read .arguments source arguments.offset arguments.stop).tokens →
        Spells source .value [token]
  | done : Spells source .more []
  | next {joint value rest : List Token} :
      Joint joint → Spells source .value value → Spells source .more rest →
        Spells source .more (joint ++ (value ++ rest))
  | formula {signs value rest : List Token} :
      Signs signs → Spells source .value value → Spells source .more rest →
        Spells source .formula (signs ++ (value ++ rest))
  | empty : Spells source (.lines 0) []
  | last {line : List Token} : Spells source .formula line → Spells source (.lines 1) line
  | blank {separator : Token} {rest : List Token} {count : Nat} :
      separator.shape = .separator → Spells source (.lines count) rest →
        Spells source (.lines count) (separator :: rest)
  | line {line rest : List Token} {separator : Token} {count : Nat} :
      Spells source .formula line → separator.shape = .separator →
        Spells source (.lines count) rest →
        Spells source (.lines (count + 1)) (line ++ separator :: rest)

theorem Signs.tail {token : Token} {signs : List Token} (h : Signs (token :: signs)) :
    Signs signs :=
  fun other member => h other (List.mem_cons_of_mem _ member)

theorem Joint.isOperator {joint : List Token} (h : Joint joint) :
    ∀ token ∈ joint, ∃ operation, token.shape = .operator operation := by
  cases h with
  | none => simp
  | operator shape signs =>
    intro token member
    rcases List.mem_cons.mp member with rfl | member
    · exact ⟨_, shape⟩
    · exact ⟨_, signs token member⟩

theorem Signs.isOperator {signs : List Token} (h : Signs signs) :
    ∀ token ∈ signs, ∃ operation, token.shape = .operator operation :=
  fun token member => ⟨_, h token member⟩

end Phrase

section Nesting

-- How many groups are open after the tokens, unless one closes that is not open.
def nesting : Nat → List Token → Option Nat
  | depth, [] => some depth
  | depth, token :: rest =>
    match token.shape with
    | .leftParen => nesting (depth + 1) rest
    | .rightParen =>
      match depth with
      | 0 => none
      | depth + 1 => nesting depth rest
    | _ => nesting depth rest

def Nested (tokens : List Token) : Prop :=
  nesting 0 tokens = some 0

theorem nesting_append (depth : Nat) (tokens others : List Token) :
    nesting depth (tokens ++ others) = (nesting depth tokens).bind (nesting · others) := by
  fun_induction nesting depth tokens with
  | case1 => rfl
  | case2 depth token rest shape ih => simp [nesting, shape, ih]
  | case3 token rest shape => simp [nesting, shape]
  | case4 token rest shape depth ih => simp [nesting, shape, ih]
  | case5 depth token rest left right ih => simp [nesting, ih]

theorem closeGroup_nested {depth after : Nat} {tokens : List Token}
    (h : nesting depth tokens = some after) (rest : List Token) :
    closeGroup depth (tokens ++ rest) =
      (closeGroup after rest).map fun (inside, later) => (tokens ++ inside, later) := by
  fun_induction nesting depth tokens with
  | case1 =>
    cases h
    simp
  | case2 depth token tokens shape ih => simp [closeGroup, shape, ih h, Function.comp_def]
  | case3 => contradiction
  | case4 token tokens shape depth ih => simp [closeGroup, shape, ih h, Function.comp_def]
  | case5 depth token tokens left right ih => simp [closeGroup, ih h, Function.comp_def]

theorem closeGroup_eq_some {depth : Nat} {tokens inside after : List Token}
    (h : closeGroup depth tokens = some (inside, after)) :
    ∃ closing, tokens = inside ++ closing :: after ∧ closing.shape = .rightParen ∧
      nesting depth inside = some 0 := by
  induction tokens generalizing depth inside with
  | nil => contradiction
  | cons token tokens ih =>
    have step {n : Nat} (same : ∀ others, nesting depth (token :: others) = nesting n others)
        (h : (closeGroup n tokens).map (fun (inside, after) => (token :: inside, after)) =
          some (inside, after)) :
        ∃ closing, token :: tokens = inside ++ closing :: after ∧ closing.shape = .rightParen ∧
          nesting depth inside = some 0 := by
      simp only [Option.map_eq_some_iff, Prod.mk.injEq, Prod.exists] at h
      obtain ⟨inner, later, found, rfl, rfl⟩ := h
      obtain ⟨closing, split, shape, nested⟩ := ih found
      exact ⟨closing, by rw [split, List.cons_append], shape, by rw [same, nested]⟩
    simp only [closeGroup] at h
    split at h
    next shape => exact step (fun others => by simp [nesting, shape]) h
    next shape =>
      split at h
      · cases h
        exact ⟨token, rfl, shape, rfl⟩
      next depth => exact step (fun others => by simp [nesting, shape]) h
    next left right =>
      exact step (fun others => by simp [nesting]) h

theorem lineEnd_nested {depth after : Nat} {tokens : List Token}
    (h : nesting depth tokens = some after) (rest : List Token) :
    lineEnd (depth + 1) (tokens ++ rest) = lineEnd (after + 1) rest := by
  fun_induction nesting depth tokens with
  | case1 =>
    cases h
    rfl
  | case2 depth token tokens shape ih => simp [lineEnd, shape, ih h]
  | case3 => contradiction
  | case4 token tokens shape depth ih => simp [lineEnd, shape, ih h]
  | case5 depth token tokens left right ih =>
    rw [List.cons_append, lineEnd]
    split <;> simp_all

theorem lineEnd_group {opening closing : Token} {inside : List Token}
    (opens : opening.shape = .leftParen) (closes : closing.shape = .rightParen)
    (nested : nesting 0 inside = some 0) (rest : List Token) :
    lineEnd 0 (opening :: (inside ++ closing :: rest)) = lineEnd 0 rest := by
  have skipped : lineEnd 1 (inside ++ closing :: rest) = lineEnd 1 (closing :: rest) :=
    lineEnd_nested nested _
  simp [lineEnd, opens, skipped, closes]

theorem nesting_operators {tokens : List Token}
    (h : ∀ token ∈ tokens, ∃ operation, token.shape = .operator operation) (depth : Nat) :
    nesting depth tokens = some depth := by
  induction tokens with
  | nil => rfl
  | cons token rest ih =>
    obtain ⟨operation, shape⟩ := h token List.mem_cons_self
    simp [nesting, shape, ih fun other member => h other (List.mem_cons_of_mem _ member)]

theorem lineEnd_operators {tokens : List Token}
    (h : ∀ token ∈ tokens, ∃ operation, token.shape = .operator operation) (rest : List Token) :
    lineEnd 0 (tokens ++ rest) = lineEnd 0 rest := by
  induction tokens with
  | nil => rfl
  | cons token tokens ih =>
    obtain ⟨operation, shape⟩ := h token List.mem_cons_self
    simp [lineEnd, shape, ih fun other member => h other (List.mem_cons_of_mem _ member)]

end Nesting

namespace Phrase

variable {source : String} {phrase : Phrase} {tokens : List Token}

theorem shape_of_arguments? {shape : Shape} {arguments : Capture}
    (h : shape.arguments? = some arguments) :
    (∃ callee, shape = .call callee arguments) ∨ ∃ query, shape = .query query arguments := by
  cases shape with
  | call callee other =>
    cases h
    exact .inl ⟨callee, rfl⟩
  | query query other =>
    cases h
    exact .inr ⟨query, rfl⟩
  | _ => contradiction

theorem Spells.isInner (h : Spells source phrase tokens) :
    ∀ token ∈ tokens, token.shape.isInner := by
  have operators {tokens : List Token}
      (h : ∀ token ∈ tokens, ∃ operation, token.shape = .operator operation) :
      ∀ token ∈ tokens, token.shape.isInner := by
    intro token member
    obtain ⟨operation, shape⟩ := h token member
    rw [shape]
    rfl
  induction h with
  | number shape | name shape => simp [shape, Shape.isInner]
  | group opening closing _ ih =>
    simpa [opening, closing, Shape.isInner, or_imp, forall_and] using ih
  | call asks _ _ _ =>
    rcases shape_of_arguments? asks with ⟨callee, shape⟩ | ⟨query, shape⟩
    · simp [shape, Shape.isInner]
    · simp [shape, Shape.isInner]
  | done | empty => simp
  | next joint _ _ value rest =>
    exact List.forall_mem_append.mpr ⟨operators joint.isOperator,
      List.forall_mem_append.mpr ⟨value, rest⟩⟩
  | formula signs _ _ value rest =>
    exact List.forall_mem_append.mpr ⟨operators signs.isOperator,
      List.forall_mem_append.mpr ⟨value, rest⟩⟩
  | last _ ih => exact ih
  | blank shape _ ih => exact List.forall_mem_cons.mpr ⟨by simp [shape, Shape.isInner], ih⟩
  | line _ shape _ line rest =>
    exact List.forall_mem_append.mpr ⟨line,
      List.forall_mem_cons.mpr ⟨by simp [shape, Shape.isInner], rest⟩⟩

theorem Spells.nesting (h : Spells source phrase tokens) (depth : Nat) :
    nesting depth tokens = some depth := by
  induction h generalizing depth with
  | number shape | name shape => simp [FormulaSheet.nesting, shape]
  | group opening closing _ ih =>
    simp [FormulaSheet.nesting, nesting_append, opening, closing, ih]
  | call asks _ _ _ =>
    rcases shape_of_arguments? asks with ⟨callee, shape⟩ | ⟨query, shape⟩
    · simp [FormulaSheet.nesting, shape]
    · simp [FormulaSheet.nesting, shape]
  | done | empty => rfl
  | next joint _ _ value rest =>
    simp [nesting_append, nesting_operators joint.isOperator, value, rest]
  | formula signs _ _ value rest =>
    simp [nesting_append, nesting_operators signs.isOperator, value, rest]
  | last _ ih => exact ih depth
  | blank shape _ ih => simp [FormulaSheet.nesting, shape, ih]
  | line _ shape _ line rest => simp [nesting_append, FormulaSheet.nesting, shape, line, rest]

theorem Spells.lineEnd_append (h : Spells source phrase tokens)
    (within : ∀ count, phrase ≠ .lines count) (rest : List Token) :
    lineEnd 0 (tokens ++ rest) = lineEnd 0 rest := by
  induction h generalizing rest with
  | number shape | name shape => simp [lineEnd, shape]
  | group opens closes spells =>
    simpa using lineEnd_group opens closes (spells.nesting 0) rest
  | call asks _ _ _ =>
    rcases shape_of_arguments? asks with ⟨callee, shape⟩ | ⟨query, shape⟩
    · simp [lineEnd, shape]
    · simp [lineEnd, shape]
  | done => rfl
  | next joint _ _ value more =>
    rw [List.append_assoc, List.append_assoc, lineEnd_operators joint.isOperator,
      value (by simp), more (by simp)]
  | formula signs _ _ value more =>
    rw [List.append_assoc, List.append_assoc, lineEnd_operators signs.isOperator,
      value (by simp), more (by simp)]
  | empty | last | blank | line => exact absurd rfl (within _)

end Phrase

end FormulaSheet
