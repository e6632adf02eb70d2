import FormulaSheet.Formula.Build
import FormulaSheet.Proofs.Notation.Restating

set_option autoImplicit false

namespace FormulaSheet

open Formula (LineEnd lineEnd closeGroup)

def Shape.endsValue : Shape → Bool
  | number _ | name | call .. | query .. | rightParen => true
  | _ => false

def Shape.beginsValue : Shape → Bool
  | number _ | name | call .. | query .. | leftParen => true
  | _ => false

namespace Token

/-- What follows the end of a value, written in two ways, and the operators that the two are read
as: a value, or a multiplication sign and that value; two minus signs, or one plus. -/
inductive Rewritten : Operator → Operator → List Token → List Token → Prop
  | product {star second : Token} {after : List Token} :
      star.shape = .operator .multiply → second.shape.beginsValue →
        Rewritten (.implied second.site.place) ⟨.multiply, star.site⟩ (second :: after)
          (star :: second :: after)
  | sum {minus minus' plus : Token} {after : List Token} :
      minus.shape = .operator .subtract → minus'.shape = .operator .subtract →
        plus.shape = .operator .add →
          Rewritten ⟨.add, ⟨Operation.add.text, minus.site.place⟩⟩ ⟨.add, plus.site⟩
            (minus :: minus' :: after) (plus :: after)

inductive Respelled (o o' : Operator) : List Token → List Token → Prop
  | here {first : Token} {later later' : List Token} :
      first.shape.endsValue → Rewritten o o' later later' →
        Respelled o o' (first :: later) (first :: later')
  | there (token : Token) {tokens tokens' : List Token} :
      Respelled o o' tokens tokens' → Respelled o o' (token :: tokens) (token :: tokens')

variable {o o' : Operator} {tokens tokens' later later' : List Token}

theorem Rewritten.rewrites (h : Rewritten o o' later later') : o.Rewrites o' := by
  cases h with
  | product => exact ⟨rfl, nofun⟩
  | sum => exact ⟨rfl, nofun⟩

theorem Respelled.rewrites (h : Respelled o o' tokens tokens') : o.Rewrites o' := by
  induction h with
  | here _ rewritten => exact rewritten.rewrites
  | there _ _ ih => exact ih

section Groups

inductive Regrouped (o o' : Operator) :
    Option (List Token × List Token) → Option (List Token × List Token) → Prop
  | unclosed : Regrouped o o' none none
  | before {inside after after' : List Token} : Respelled o o' after after' →
      Regrouped o o' (some (inside, after)) (some (inside, after'))
  | closing {inside later later' : List Token} : Rewritten o o' later later' →
      Regrouped o o' (some (inside, later)) (some (inside, later'))
  | within {inside inside' after : List Token} : Respelled o o' inside inside' →
      Regrouped o o' (some (inside, after)) (some (inside', after))

theorem closeGroup_cons (depth : Nat) (token : Token) :
    (token.shape = .rightParen ∧ ∀ rest, closeGroup depth (token :: rest) = some ([], rest)) ∨
      ∃ depth', ∀ rest, closeGroup depth (token :: rest) =
        (closeGroup depth' rest).map fun (inside, after) => (token :: inside, after) := by
  obtain ⟨site, shape⟩ := token
  cases shape with
  | leftParen => exact .inr ⟨depth + 1, fun _ => rfl⟩
  | rightParen =>
    cases depth with
    | zero => exact .inl ⟨rfl, fun _ => rfl⟩
    | succ depth => exact .inr ⟨depth, fun _ => rfl⟩
  | separator | name | number | operator | equals | definition | call | query =>
    exact .inr ⟨depth, fun _ => rfl⟩

theorem closeGroup_operator {token : Token} {operation : Operation}
    (shape : token.shape = .operator operation) (depth : Nat) (rest : List Token) :
    closeGroup depth (token :: rest) =
      (closeGroup depth rest).map fun (inside, after) => (token :: inside, after) := by
  simp only [closeGroup, shape]

theorem Rewritten.closeGroup (h : Rewritten o o' later later') (depth : Nat) :
    (closeGroup depth later = none ∧ closeGroup depth later' = none) ∨
      ∃ inside inside' after, closeGroup depth later = some (inside, after) ∧
        closeGroup depth later' = some (inside', after) ∧ Rewritten o o' inside inside' := by
  cases h with
  | @product star second after multiply begins =>
    rcases closeGroup_cons depth second with ⟨closes, -⟩ | ⟨depth', step⟩
    · rw [closes] at begins
      contradiction
    rw [closeGroup_operator multiply, step]
    cases closeGroup depth' after with
    | none => exact .inl ⟨rfl, rfl⟩
    | some split => exact .inr ⟨_, _, split.2, rfl, rfl, .product multiply begins⟩
  | @sum minus minus' plus after first second added =>
    rw [closeGroup_operator first, closeGroup_operator second, closeGroup_operator added]
    cases closeGroup depth after with
    | none => exact .inl ⟨rfl, rfl⟩
    | some split => exact .inr ⟨_, _, split.2, rfl, rfl, .sum first second added⟩

theorem Regrouped.cons {found found' : Option (List Token × List Token)}
    (h : Regrouped o o' found found') (token : Token) :
    Regrouped o o' (found.map fun (inside, after) => (token :: inside, after))
      (found'.map fun (inside, after) => (token :: inside, after)) := by
  cases h with
  | unclosed => exact .unclosed
  | before respelled => exact .before respelled
  | closing rewritten => exact .closing rewritten
  | within respelled => exact .within (.there token respelled)

theorem Respelled.closeGroup (h : Respelled o o' tokens tokens') (depth : Nat) :
    Regrouped o o' (closeGroup depth tokens) (closeGroup depth tokens') := by
  induction h generalizing depth with
  | @here first later later' ends rewritten =>
    rcases closeGroup_cons depth first with ⟨-, closed⟩ | ⟨depth', step⟩
    · rw [closed, closed]
      exact .closing rewritten
    rw [step, step]
    rcases rewritten.closeGroup depth' with ⟨none, none'⟩ | ⟨l, l', after, found, found', again⟩
    · rw [none, none']
      exact .unclosed
    · rw [found, found']
      exact .within (.here ends again)
  | there token respelled ih =>
    rcases closeGroup_cons depth token with ⟨-, closed⟩ | ⟨depth', step⟩
    · rw [closed, closed]
      exact .before respelled
    · rw [step, step]
      exact (ih depth').cons token

end Groups

section Lines

inductive Relined (o o' : Operator) : LineEnd → LineEnd → Prop
  | same (stop : LineEnd) : Relined o o' stop stop
  | separator {rest rest' : List Token} : Respelled o o' rest rest' →
      Relined o o' (.separator rest) (.separator rest')
  | definition (site : Site) (outline : Outline) (rest rest' : List Token) :
      Relined o o' (.definition site outline rest) (.definition site outline rest')

theorem lineEnd_cons (depth : Nat) (token : Token) :
    (token.shape = .separator ∧ ∀ rest, lineEnd depth (token :: rest) = .separator rest) ∨
      (∃ outline, token.shape = .definition outline ∧
        ∀ rest, lineEnd depth (token :: rest) = .definition token.site outline rest) ∨
      ∃ depth', ∀ rest, lineEnd depth (token :: rest) = lineEnd depth' rest := by
  obtain ⟨site, shape⟩ := token
  cases shape with
  | separator =>
    cases depth with
    | zero => exact .inl ⟨rfl, fun _ => rfl⟩
    | succ depth => exact .inr (.inr ⟨depth + 1, fun _ => rfl⟩)
  | definition outline =>
    cases depth with
    | zero => exact .inr (.inl ⟨outline, rfl, fun _ => rfl⟩)
    | succ depth => exact .inr (.inr ⟨depth + 1, fun _ => rfl⟩)
  | leftParen => exact .inr (.inr ⟨depth + 1, fun _ => rfl⟩)
  | rightParen => exact .inr (.inr ⟨depth - 1, fun _ => rfl⟩)
  | name | number | operator | equals | call | query => exact .inr (.inr ⟨depth, fun _ => rfl⟩)

theorem lineEnd_operator {token : Token} {operation : Operation}
    (shape : token.shape = .operator operation) (depth : Nat) (rest : List Token) :
    lineEnd depth (token :: rest) = lineEnd depth rest := by
  simp only [lineEnd, shape]

theorem Rewritten.lineEnd (h : Rewritten o o' later later') (depth : Nat) :
    lineEnd depth later' = lineEnd depth later := by
  cases h with
  | product multiply => exact lineEnd_operator multiply depth _
  | sum first second added =>
    rw [lineEnd_operator first, lineEnd_operator second, lineEnd_operator added]

theorem Respelled.lineEnd (h : Respelled o o' tokens tokens') (depth : Nat) :
    Relined o o' (lineEnd depth tokens) (lineEnd depth tokens') := by
  induction h generalizing depth with
  | @here first later later' ends rewritten =>
    rcases lineEnd_cons depth first with ⟨shape, -⟩ | ⟨outline, shape, -⟩ | ⟨depth', step⟩
    · rw [shape] at ends
      contradiction
    · rw [shape] at ends
      contradiction
    · rw [step, step, rewritten.lineEnd]
      exact .same _
  | there token respelled ih =>
    rcases lineEnd_cons depth token with ⟨-, stops⟩ | ⟨outline, -, stops⟩ | ⟨depth', step⟩
    · rw [stops, stops]
      exact .separator respelled
    · rw [stops, stops]
      exact .definition _ _ _ _
    · rw [step, step]
      exact ih depth'

end Lines

end Token

end FormulaSheet
