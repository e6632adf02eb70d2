import FormulaSheet.Proofs.Loosening

set_option autoImplicit false

namespace FormulaSheet

inductive Error.Alike : Error → Error → Prop
  | grammar (fault : GrammarFault) (position position' : Position) :
      Error.Alike (.grammar fault position) (.grammar fault position')
  | naming (fault : NamingFault) (position position' : Position) :
      Error.Alike (.naming fault position) (.naming fault position')
  | arithmetic (fault : ArithmeticFault) (position position' : Position) (left right : Float) :
      Error.Alike (.arithmetic fault position left right) (.arithmetic fault position' left right)
  | internal (fault : InternalFault) : Error.Alike (.internal fault) (.internal fault)

theorem Error.Alike.refl (e : Error) : e.Alike e := by
  cases e <;> constructor

def Tolerance.anyPlace : Tolerance where
  near := fun _ _ => True
  like := Error.Alike
  free := fun _ => False
  shared := fun _ => True

abbrev Coincide {α β : Type} (same : α → β → Prop) : Except Error α → Except Error β → Prop :=
  Follows .anyPlace same

/-- The same value, or errors with the same fault and operands. -/
def SameOutcome {α : Type} (x y : Except Error α) : Prop :=
  (∃ a, x = .ok a ∧ y = .ok a) ∨ ∃ e e', x = .error e ∧ y = .error e' ∧ e.Alike e'

section Coincidence

variable {α β : Type} {same : α → β → Prop} {x : Except Error α} {y : Except Error β}

theorem Coincide.refl {same : α → α → Prop} (equal : ∀ a, same a a) (x : Except Error α) :
    Coincide same x x :=
  Follows.refl Error.Alike.refl equal x

theorem Coincide.ok_iff (h : Coincide same x y) : (∃ a, x = .ok a) ↔ ∃ b, y = .ok b := by
  cases h with
  | ok => simp
  | like => simp
  | free never => exact never.elim

theorem Coincide.sameOutcome {x y : Except Error α} (h : Coincide (· = ·) x y) :
    SameOutcome x y := by
  cases h with
  | ok same => exact .inl ⟨_, rfl, congrArg Except.ok same.symm⟩
  | like alike => exact .inr ⟨_, _, rfl, rfl, alike⟩
  | free never => exact never.elim

end Coincidence

inductive Part.Restated (o o' : Operator) : Part → Part → Prop
  | refl (part : Part) : Part.Restated o o' part part
  | operator : Part.Restated o o' (.operator o) (.operator o')
  | bracket {opening : Site} {inside inside' : Formula} :
      List.Forall₂ (Part.Restated o o') inside inside' →
        Part.Restated o o' (.bracket opening inside) (.bracket opening inside')

abbrev Formula.Restated (o o' : Operator) : Formula → Formula → Prop :=
  List.Forall₂ (Part.Restated o o')

inductive Statement.Restated (o o' : Operator) : Statement → Statement → Prop
  | formula {formula formula' : Formula} : Formula.Restated o o' formula formula' →
      Statement.Restated o o' (.formula formula) (.formula formula')

structure Operator.Rewrites (o o' : Operator) : Prop where
  same : o'.operation = o.operation
  unsigned : o.operation ≠ .subtract

variable {o o' : Operator} {formula formula' : Formula}

theorem Formula.Restated.refl (formula : Formula) : Formula.Restated o o' formula formula :=
  List.forall₂_same.mpr fun part _ => .refl part

theorem Part.Restated.isValue {part part' : Part} (h : part.Restated o o' part') :
    part'.isValue = part.isValue := by
  cases h <;> rfl

theorem Formula.Restated.matches (rewrites : o.Rewrites o')
    (h : Formula.Restated o o' formula formula') : Formula.Matches .anyPlace formula formula' := by
  induction formula using Formula.nesting_induction generalizing formula' with
  | step formula inBracket inArgument =>
    refine ((List.forall₂_and_left _ _).mpr ⟨fun _ member => member, h⟩).imp ?_
    rintro part part' ⟨member, restated⟩
    cases restated with
    | refl =>
      have own : Formula.Matches .anyPlace [part] [part] :=
        .refl (fun _ => trivial) (fun _ => trivial) [part]
      cases own with
      | cons first => exact first
    | operator => exact .operator trivial rewrites.same
    | bracket inside => exact .bracket (inBracket _ _ member inside)

theorem Part.Restated.matches (rewrites : o.Rewrites o') {part part' : Part}
    (h : part.Restated o o' part') : part.Matches .anyPlace part' := by
  have alone : Formula.Restated o o' [part] [part'] := .cons h .nil
  cases alone.matches rewrites with
  | cons first => exact first

namespace Sheet

variable {sheet : Sheet} {run : Function → Callee → Scope → Except Error Answer} {scope : Scope}

theorem aligned_anyPlace (sheet : Sheet) : Aligned .anyPlace sheet sheet where
  grammar := fun _ fault => .inr (.grammar fault _ _)
  internal := fun fault => .inr (.internal fault)
  apply := by
    intro o o' _ same left right
    unfold Operator.evaluate
    rw [same]
    cases o.operation.evaluate sheet.limits left right with
    | ok value => exact .ok rfl
    | error fault => exact .like (.arithmetic fault _ _ left right)

theorem formulaValue_restated (rewrites : o.Rewrites o')
    (h : Formula.Restated o o' formula formula') :
    Coincide (· = ·) (formulaValue sheet run scope formula)
      (formulaValue sheet run scope formula') := by
  have aligned := aligned_anyPlace sheet
  induction formula using Formula.nesting_induction generalizing formula' with
  | step formula inBracket inArgument =>
    refine aligned.conclude (h.matches rewrites) (aligned.items ?_ .value)
    refine ((List.forall₂_and_left _ _).mpr ⟨fun _ member => member, h⟩).imp ?_
    rintro part part' ⟨member, restated⟩
    refine ⟨restated.matches rewrites, ?_⟩
    cases restated with
    | refl => exact Coincide.refl (fun _ => rfl) _
    | operator =>
      simp only [partValue, rewrites.same]
      exact .like (.internal _)
    | bracket inside => exact inBracket _ _ member inside

end Sheet

end FormulaSheet
