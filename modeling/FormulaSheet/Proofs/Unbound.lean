import FormulaSheet.Proofs.Termination
import FormulaSheet.Proofs.Validation

set_option autoImplicit false

namespace FormulaSheet.Sheet

variable {sheet : Sheet}

/-- A name in a body that is no parameter and goes by the name of a function. As an argument of its
own it would not have passed. -/
structure Misnamed (sheet : Sheet) (definition : Definition) (site : Site) : Prop where
  named : definition.body.Has (.name site)
  free : site.text ∉ definition.parameters
  bound : (sheet.symbols.function? site.text).isSome
  apart : ∀ callee arguments, definition.body.Has (.call callee arguments) →
    [.name site] ∉ arguments

def Misses (sheet : Sheet) (definition : Definition) (missing : String) (position : Position) :
    Prop :=
  ∃ user, Relation.ReflTransGen sheet.Calls definition user ∧
    ∃ site, sheet.Misnamed user site ∧ site.text = missing ∧ position = site.locate sheet.source

theorem Misses.inBody {caller definition : Definition} {missing : String} {position : Position}
    (calls : sheet.Calls caller definition) (h : sheet.Misses definition missing position) :
    sheet.Misses caller missing position := by
  obtain ⟨user, reached, blamed⟩ := h
  exact ⟨user, .head calls reached, blamed⟩

theorem value?_eq_none {scope : Scope} {name : String} (h : sheet.value? scope name = none) :
    scope.find? name = none ∧ sheet.symbols.constant? name = none := by
  unfold value? at h
  cases found : scope.find? name with
  | none =>
    rw [found] at h
    exact ⟨rfl, h⟩
  | some x =>
    rw [found] at h
    contradiction

theorem misnamed_of_checked {definition : Definition} {scope : Scope} {site : Site}
    (checked : checkFormula sheet definition.parameters true definition.body = .ok ())
    (covers : scope.Covers definition.parameters) (named : definition.body.Has (.name site))
    (missing : sheet.value? scope site.text = none) : sheet.Misnamed definition site := by
  obtain ⟨unscoped, noConstant⟩ := value?_eq_none missing
  have free : site.text ∉ definition.parameters := by
    intro member
    have known := covers site.text member
    rw [unscoped] at known
    contradiction
  have bound : (sheet.symbols.function? site.text).isSome := by
    have known := checkPart_name.mp (checkPart_of_has checked named) rfl free
    unfold SymbolTable.contains at known
    unfold SymbolTable.constant? at noConstant
    unfold SymbolTable.function?
    cases found : sheet.symbols.find? site.text with
    | none =>
      rw [found] at known
      contradiction
    | some symbol =>
      cases symbol with
      | constant value =>
        rw [found] at noConstant
        contradiction
      | function f => rfl
  refine ⟨named, free, bound, fun callee arguments has given => ?_⟩
  obtain ⟨f, -, -, passed⟩ := checkCall_eq_ok.mp (checkPart_call.mp (checkPart_of_has checked has)).1
  rcases checkArgument_name.mp (passed _ given) with member | known
  · exact free member
  · rw [noConstant] at known
    contradiction

structure Bodied (sheet : Sheet) : Prop where
  checked : ∀ name definition, sheet.body? name = some definition →
    checkFormula sheet definition.parameters true definition.body = .ok ()
  plots : ∀ name definition, sheet.symbols.function? name = some (.plot definition) →
    definition.parameters = ["x"]

theorem bodied_of_parse {source : String} {limits : Limits} {statements : List Statement}
    (parsed : (ofSource source limits).parse = (sheet, .ok statements)) : sheet.Bodied := by
  have reachable := reachable_of_parse parsed
  obtain ⟨entered, raw, passed⟩ := parse_eq_ok parsed
  constructor
  · intro name definition found
    exact passed.body_checked reachable.coherent found
  · intro name definition found
    cases reachable.allWritten name _ found
    rfl

theorem Enters.covers {run : Function → Callee → Scope → Except Error Answer} {f : Function}
    {scope inner : Scope} {definition : Definition}
    (h : Enters sheet run f scope definition inner) (covers : scope.Covers f.parameters)
    (drawn : ∀ plotted, f = .plot plotted → plotted.parameters = ["x"]) :
    inner.Covers definition.parameters := by
  cases h with
  | user => exact covers
  | plot range before =>
    rw [drawn definition rfl]
    exact Scope.covers_bind rfl

section Evaluation

variable {missing : String} {position : Position}

theorem body_misses {run : Function → Callee → Scope → Except Error Answer}
    {definition : Definition} {scope : Scope}
    (checked : checkFormula sheet definition.parameters true definition.body = .ok ())
    (covers : scope.Covers definition.parameters)
    (runs : ∀ callee f, sheet.symbols.function? callee.name = some f → ∀ values : List Float,
      values.length = f.parameters.length →
        run f callee (.bind f.parameters values) =
          .error (.naming (.unboundVariable missing) position) →
        ∃ next, sheet.body? callee.name = some next ∧ sheet.Misses next missing position)
    (failed : formulaValue sheet run scope definition.body =
      .error (.naming (.unboundVariable missing) position)) :
    sheet.Misses definition missing position := by
  generalize raised : Error.naming (.unboundVariable missing) position = e at failed
  cases formulaValue_error failed with
  | own own =>
    subst raised
    contradiction
  | @unbound site named unvalued =>
    cases raised
    exact ⟨definition, .refl, site, misnamed_of_checked checked covers named unvalued, rfl, rfl⟩
  | @call callee arguments _ has fault =>
    cases fault with
    | unknown | points => cases raised
    | arity found mismatch =>
      obtain ⟨f, known, fits⟩ := checkFormula_allFit checked callee arguments has
      rw [found] at known
      cases known
      rw [checkArity_eq_ok.mpr fits] at mismatch
      contradiction
    | run found arity given failed =>
      subst raised
      have bound := given.trans (checkArity_eq_ok.mp arity)
      obtain ⟨next, body, misses⟩ := runs callee _ found _ bound failed
      exact misses.inBody ⟨callee, ⟨arguments, has⟩, body⟩

theorem Bodied.runFunction_misses (bodied : sheet.Bodied) {depth : Nat} {callee : Callee}
    {f : Function} (found : sheet.symbols.function? callee.name = some f) {values : List Float}
    (given : values.length = f.parameters.length)
    (failed : sheet.runFunction depth f callee (.bind f.parameters values) =
      .error (.naming (.unboundVariable missing) position)) :
    ∃ definition, sheet.body? callee.name = some definition ∧
      sheet.Misses definition missing position := by
  induction depth generalizing callee f values with
  | zero => simp [runFunction] at failed
  | succ depth ih =>
    generalize raised : Error.naming (.unboundVariable missing) position = e at failed
    cases runFunction_error failed with
    | arithmetic | missing | noSequence | arity => cases raised
    | @body definition inner _ enters failed =>
      subst raised
      have body := body?_iff.mpr ⟨f, found, enters.definition?⟩
      have covers := enters.covers (Scope.covers_bind given) fun plotted same =>
        bodied.plots _ plotted (same ▸ found)
      exact ⟨definition, body, body_misses (bodied.checked _ definition body) covers
        (fun _ _ found _ given => ih found given) failed⟩

end Evaluation

/-- On a sheet that was read without an error, evaluating a body with all its parameters bound
misses a variable only where a name, in that body or in one that its calls lead to, is no parameter
and is that of a function. -/
theorem unbound_of_parse (source : String) (limits : Limits) (sheet : Sheet)
    (statements : List Statement)
    (parsed : (ofSource source limits).parse = (sheet, .ok statements)) :
    ∀ name definition, sheet.body? name = some definition →
      ∀ scope : Scope, (∀ parameter ∈ definition.parameters, (scope.find? parameter).isSome) →
        ∀ missing position, sheet.evaluate scope definition.body =
            .error (.naming (.unboundVariable missing) position) →
          ∃ user, Relation.ReflTransGen sheet.Calls definition user ∧
            ∃ site, sheet.Misnamed user site ∧ site.text = missing ∧
              position = site.locate sheet.source := by
  have bodied := bodied_of_parse parsed
  intro name definition found scope covers missing position failed
  exact body_misses (bodied.checked name definition found) covers
    (fun _ _ found _ given => bodied.runFunction_misses found given) failed

-- `sin` stands in the body of `f` as a name, and `g` calls `f`.
theorem unbound_of_parse_sine :
    ∃ sheet statements, (ofSource "f(x)=x+sin\ng(a)=2*f(a)" {}).parse = (sheet, .ok statements) ∧
      ∃ definition, sheet.body? "g" = some definition ∧
        ∃ user, Relation.ReflTransGen sheet.Calls definition user ∧
          ∃ site, sheet.Misnamed user site ∧ site.text = "sin" := by
  obtain ⟨sheet, statements, parsed⟩ := eq_ok_of_isSome
    (by decide +kernel : (ofSource "f(x)=x+sin\ng(a)=2*f(a)" {}).parse.2.toOption.isSome)
  refine ⟨sheet, statements, parsed, ?_⟩
  have evaluated : ((ofSource "f(x)=x+sin\ng(a)=2*f(a)" {}).parse.1.body? "g").map
      (fun definition => (definition.parameters,
        (ofSource "f(x)=x+sin\ng(a)=2*f(a)" {}).parse.1.evaluate (.bind ["a"] [1])
          definition.body)) =
      some (["a"], .error (.naming (.unboundVariable "sin") ⟨⟨"sin", 7, 1, 8⟩, "f(x)=x+sin"⟩)) := by
    decide +kernel
  rw [parsed] at evaluated
  obtain ⟨definition, found, same⟩ := Option.map_eq_some_iff.mp evaluated
  obtain ⟨parameters, failed⟩ := Prod.mk.inj same
  have covers : ∀ parameter ∈ definition.parameters,
      ((Scope.bind ["a"] [1]).find? parameter).isSome := by
    rw [parameters]
    exact Scope.covers_bind rfl
  obtain ⟨user, reached, site, misnamed, missing, -⟩ :=
    unbound_of_parse _ _ _ _ parsed "g" definition found _ covers _ _ failed
  exact ⟨definition, found, user, reached, site, misnamed, missing⟩

-- The name of a function passes as a variable of the body.
theorem sine_missed :
    ∃ sheet statements, (ofSource "f(x)=x+sin" {}).parse = (sheet, .ok statements) ∧
      ∃ name definition, sheet.body? name = some definition ∧
        ∃ scope : Scope, (∀ parameter ∈ definition.parameters, (scope.find? parameter).isSome) ∧
          ∃ missing position, sheet.evaluate scope definition.body =
            .error (.naming (.unboundVariable missing) position) := by
  obtain ⟨sheet, statements, parsed⟩ := eq_ok_of_isSome
    (by decide +kernel : (ofSource "f(x)=x+sin" {}).parse.2.toOption.isSome)
  refine ⟨sheet, statements, parsed, "f", ?_⟩
  have evaluated : ((ofSource "f(x)=x+sin" {}).parse.1.body? "f").map
      (fun definition => (definition.parameters,
        (ofSource "f(x)=x+sin" {}).parse.1.evaluate (.bind ["x"] [1]) definition.body)) =
      some (["x"], .error (.naming (.unboundVariable "sin") ⟨⟨"sin", 7, 1, 8⟩, "f(x)=x+sin"⟩)) := by
    decide +kernel
  rw [parsed] at evaluated
  obtain ⟨definition, found, same⟩ := Option.map_eq_some_iff.mp evaluated
  obtain ⟨parameters, failed⟩ := Prod.mk.inj same
  refine ⟨definition, found, .bind ["x"] [1], ?_, _, _, failed⟩
  rw [parameters]
  exact Scope.covers_bind rfl

end FormulaSheet.Sheet
