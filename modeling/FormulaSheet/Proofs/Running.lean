import FormulaSheet.Proofs.Evaluation
import FormulaSheet.Proofs.Recursion
import Mathlib.Data.List.Perm.Subperm

set_option autoImplicit false

namespace FormulaSheet.Sheet

section Relations

variable (sheet : Sheet) (run : Function → Callee → Scope → Except Error Answer) (scope : Scope)

inductive Evaluated : Awaiting → Formula → Part → Prop
  | here {awaiting : Awaiting} {part : Part} {rest : Formula} :
      part.isValue → Evaluated awaiting (part :: rest) part
  | later {awaiting : Awaiting} {part other : Part} {rest : Formula} {x : Float} :
      part.isValue → partValue sheet run scope part = .ok x → Evaluated .operator rest other →
        Evaluated awaiting (part :: rest) other
  | operator {o : Operator} {other : Part} {rest : Formula} :
      Evaluated (.value none) rest other → Evaluated .operator (.operator o :: rest) other
  | sign {o : Operator} {other : Part} {rest : Formula} :
      o.operation.isSign → Evaluated (.value (some o)) rest other →
        Evaluated (.value none) (.operator o :: rest) other

inductive Asks : Formula → Callee → List Formula → Prop
  | own {formula : Formula} {callee : Callee} {arguments : List Formula} :
      Evaluated sheet run scope (.value none) formula (.call callee arguments) →
        Asks formula callee arguments
  | bracket {formula inside : Formula} {opening : Site} {callee : Callee}
      {arguments : List Formula} :
      Evaluated sheet run scope (.value none) formula (.bracket opening inside) →
        Asks inside callee arguments → Asks formula callee arguments
  | argument {formula argument : Formula} {callee inner : Callee} {f : Function}
      {earlier later arguments : List Formula} {values : List Float} :
      Evaluated sheet run scope (.value none) formula
        (.call callee (earlier ++ argument :: later)) →
      sheet.symbols.function? callee.name = some f →
      sheet.checkArity callee f (earlier ++ argument :: later).length = .ok () →
      argumentValues sheet run scope earlier = .ok values →
      Asks argument inner arguments → Asks formula inner arguments

end Relations

variable {sheet : Sheet}

-- With calls nested at most so deep, evaluating the formula evaluates the definition's body.
def Invokes (sheet : Sheet) (depth : Nat) (scope : Scope) (formula : Formula)
    (definition : Definition) (inner : Scope) : Prop :=
  ∃ callee arguments f values,
    Asks sheet (sheet.runFunction (depth + 1)) scope formula callee arguments ∧
    sheet.symbols.function? callee.name = some f ∧
    sheet.checkArity callee f arguments.length = .ok () ∧
    argumentValues sheet (sheet.runFunction (depth + 1)) scope arguments = .ok values ∧
    Enters sheet (sheet.runFunction depth) f (.bind f.parameters values) definition inner

inductive Runs (sheet : Sheet) : Nat → Scope → Formula → Definition → Prop
  | called {depth : Nat} {scope inner : Scope} {formula : Formula} {definition : Definition} :
      sheet.Invokes depth scope formula definition inner →
        Runs sheet (depth + 1) scope formula definition
  | inside {depth : Nat} {scope inner : Scope} {formula : Formula}
      {definition other : Definition} :
      sheet.Invokes depth scope formula definition inner →
        Runs sheet depth inner definition.body other → Runs sheet (depth + 1) scope formula other

def Recursive (sheet : Sheet) (definition : Definition) : Prop :=
  ∃ callee, Reaches sheet.body? definition callee ∧ callee.name = definition.name

section Static

variable {run : Function → Callee → Scope → Except Error Answer} {scope inner : Scope}
  {formula : Formula} {callee : Callee} {arguments : List Formula} {definition : Definition}

theorem Evaluated.mem {awaiting : Awaiting} {part : Part}
    (h : Evaluated sheet run scope awaiting formula part) : part ∈ formula := by
  induction h with
  | here => exact List.mem_cons_self
  | later _ _ _ ih | operator _ ih | sign _ _ ih => exact List.mem_cons_of_mem _ ih

theorem Asks.has (h : Asks sheet run scope formula callee arguments) :
    formula.Has (.call callee arguments) := by
  induction h with
  | own evaluated => exact .here evaluated.mem
  | bracket evaluated _ ih => exact ih.bracket evaluated.mem
  | argument evaluated _ _ _ _ ih => exact ih.argument evaluated.mem (by simp)

theorem Invokes.calls {depth : Nat} (h : sheet.Invokes depth scope formula definition inner) :
    ∃ callee arguments, formula.Has (.call callee arguments) ∧
      sheet.body? callee.name = some definition := by
  obtain ⟨callee, arguments, f, values, asks, found, -, -, enters⟩ := h
  exact ⟨callee, arguments, asks.has, body?_iff.mpr ⟨f, found, enters.definition?⟩⟩

theorem Runs.known {depth : Nat} (h : Runs sheet depth scope formula definition) :
    ∃ name, sheet.body? name = some definition := by
  induction h with
  | called invokes =>
    obtain ⟨callee, _, -, found⟩ := invokes.calls
    exact ⟨callee.name, found⟩
  | inside _ _ ih => exact ih

end Static

section Depth

variable {run : Function → Callee → Scope → Except Error Answer} {scope : Scope}
  {formula : Formula}

theorem items_error_evaluated {awaiting : Awaiting} {e : Error}
    (foreign : ∀ fault site, sheet.grammarError fault site ≠ e)
    (failed : items sheet run scope awaiting formula = .error e) :
    ∃ part, Evaluated sheet run scope awaiting formula part ∧
      partValue sheet run scope part = .error e := by
  replace failed := unlisted_of_items failed
  induction failed with
  | missing | unexpected | repeated => exact absurd rfl (foreign _ _)
  | part value failed => exact ⟨_, .here value, failed⟩
  | value value first _ ih =>
    obtain ⟨other, evaluated, failed⟩ := ih foreign
    exact ⟨other, .later value first evaluated, failed⟩
  | sign sign _ ih =>
    obtain ⟨other, evaluated, failed⟩ := ih foreign
    exact ⟨other, .sign sign evaluated, failed⟩
  | operator _ ih =>
    obtain ⟨other, evaluated, failed⟩ := ih foreign
    exact ⟨other, .operator evaluated, failed⟩

theorem formulaValue_fails {e : Error} (foreign : ∀ o, .internal (.loneOperator o) ≠ e)
    (failed : formulaValue sheet run scope formula = .error e) :
    items sheet run scope (.value none) formula = .error e ∨
      ∃ listed, items sheet run scope (.value none) formula = .ok listed ∧
        Item.reduce sheet.limits sheet.source listed = .error e := by
  unfold formulaValue conclude at failed
  split at failed
  · cases failed
    exact absurd rfl (foreign _)
  · exact Outcome.bind_eq_error.mp failed

inductive CallFails (sheet : Sheet) (run : Function → Callee → Scope → Except Error Answer)
    (scope : Scope) (callee : Callee) : List Formula → Error → Prop
  | naming {arguments : List Formula} (fault : NamingFault) :
      CallFails sheet run scope callee arguments (sheet.namingError fault callee.site)
  | argument {f : Function} {earlier later : List Formula} {argument : Formula}
      {values : List Float} {e : Error} :
      sheet.symbols.function? callee.name = some f →
      sheet.checkArity callee f (earlier ++ argument :: later).length = .ok () →
      argumentValues sheet run scope earlier = .ok values →
      formulaValue sheet run scope argument = .error e →
        CallFails sheet run scope callee (earlier ++ argument :: later) e
  | run {f : Function} {arguments : List Formula} {values : List Float} {e : Error} :
      sheet.symbols.function? callee.name = some f →
      sheet.checkArity callee f arguments.length = .ok () →
      argumentValues sheet run scope arguments = .ok values →
      run f callee (.bind f.parameters values) = .error e →
        CallFails sheet run scope callee arguments e
  | points {arguments : List Formula} :
      CallFails sheet run scope callee arguments (sheet.grammarError .plotCalled callee.site)

theorem partValue_call_fails {callee : Callee} {arguments : List Formula} {e : Error}
    (failed : partValue sheet run scope (.call callee arguments) = .error e) :
    CallFails sheet run scope callee arguments e := by
  simp only [partValue] at failed
  cases found : sheet.symbols.function? callee.name with
  | none =>
    rw [found] at failed
    cases failed
    exact .naming _
  | some f =>
    rw [found] at failed
    rcases Outcome.bind_eq_error.mp failed with failed | ⟨_, arity, failed⟩
    · obtain ⟨fault, rfl⟩ := checkArity_error failed
      exact .naming fault
    rcases Outcome.bind_eq_error.mp failed with failed | ⟨values, given, failed⟩
    · rw [argumentValues_eq_mapM] at failed
      obtain ⟨earlier, argument, later, values, rfl, before, failed⟩ :=
        Outcome.mapM_eq_error failed
      rw [← argumentValues_eq_mapM] at before
      exact .argument found arity before failed
    rcases Outcome.bind_eq_error.mp failed with failed | ⟨answer, -, failed⟩
    · exact .run found arity given failed
    · cases answer <;> cases failed
      exact .points

theorem formulaValue_tooDeep
    (failed : formulaValue sheet run scope formula = .error (.internal .callsTooDeep)) :
    ∃ callee arguments f values, Asks sheet run scope formula callee arguments ∧
      sheet.symbols.function? callee.name = some f ∧
      sheet.checkArity callee f arguments.length = .ok () ∧
      argumentValues sheet run scope arguments = .ok values ∧
      run f callee (.bind f.parameters values) = .error (.internal .callsTooDeep) := by
  induction formula using Formula.nesting_induction with
  | step formula inBracket inArgument =>
    rcases formulaValue_fails (fun _ same => by cases same) failed with listed | ⟨_, -, failed⟩
    case inr =>
      have := Item.reduce_error failed
      contradiction
    obtain ⟨part, evaluated, failed⟩ :=
      items_error_evaluated (fun _ _ same => by cases same) listed
    cases part with
    | literal | operator => cases failed
    | name site =>
      simp only [partValue] at failed
      split at failed <;> cases failed
    | bracket opening inside =>
      obtain ⟨callee, arguments, f, values, asks, called⟩ :=
        inBracket opening inside evaluated.mem failed
      exact ⟨callee, arguments, f, values, .bracket evaluated asks, called⟩
    | call callee arguments =>
      generalize tooDeep : Error.internal .callsTooDeep = e at failed
      cases partValue_call_fails failed with
      | naming | points => cases tooDeep
      | argument found arity before failed =>
        subst tooDeep
        obtain ⟨inner, arguments, g, given, asks, called⟩ :=
          inArgument callee _ evaluated.mem _ (by simp) failed
        exact ⟨inner, arguments, g, given, .argument evaluated found arity before asks, called⟩
      | run found arity given failed =>
        subst tooDeep
        exact ⟨callee, arguments, _, _, .own evaluated, found, arity, given, failed⟩

theorem runFunction_tooDeep {depth : Nat} {f : Function} {callee : Callee} {scope : Scope}
    (failed : sheet.runFunction (depth + 1) f callee scope = .error (.internal .callsTooDeep)) :
    ∃ definition inner, Enters sheet (sheet.runFunction depth) f scope definition inner ∧
      formulaValue sheet (sheet.runFunction depth) inner definition.body =
        .error (.internal .callsTooDeep) := by
  cases runFunction_error failed with
  | missing _ missing => cases argument_error missing
  | body enters failed => exact ⟨_, _, enters, failed⟩

/-- A run that is nested deeper than there are names left comes to a definition that calls itself.
`seen` are the definitions that the run is in already; each of them reaches the formula's calls. -/
theorem runs_recursive {depth : Nat} (seen : List Definition)
    (named : ∀ name definition, sheet.body? name = some definition →
      definition.name = name ∧ name ∈ sheet.symbols.definedNames)
    (own : ∀ definition ∈ seen, sheet.body? definition.name = some definition)
    (distinct : (seen.map (·.name)).Nodup)
    (reaches : ∀ definition ∈ seen, ∀ callee arguments, formula.Has (.call callee arguments) →
      Reaches sheet.body? definition callee)
    (deep : sheet.symbols.definedNames.length < depth + seen.length)
    (failed : formulaValue sheet (sheet.runFunction depth) scope formula =
      .error (.internal .callsTooDeep)) :
    ∃ definition, Runs sheet depth scope formula definition ∧ sheet.Recursive definition := by
  induction depth generalizing scope formula seen with
  | zero =>
    -- The definitions that the run is in are distinct, and there are not so many names.
    have within : seen.map (·.name) ⊆ sheet.symbols.definedNames := by
      intro name member
      obtain ⟨definition, present, rfl⟩ := List.mem_map.mp member
      exact (named _ _ (own definition present)).2
    have fits := (List.subperm_of_subset distinct within).length_le
    rw [List.length_map] at fits
    omega
  | succ depth ih =>
    obtain ⟨callee, arguments, f, values, asks, found, arity, bound, failed⟩ :=
      formulaValue_tooDeep failed
    obtain ⟨definition, inner, enters, failed⟩ := runFunction_tooDeep failed
    have invokes : sheet.Invokes depth scope formula definition inner :=
      ⟨callee, arguments, f, values, asks, found, arity, bound, enters⟩
    have body : sheet.body? callee.name = some definition :=
      body?_iff.mpr ⟨f, found, enters.definition?⟩
    have same := (named _ _ body).1
    -- A definition that the run is in already has come back to itself; any other is one more.
    by_cases again : definition.name ∈ seen.map (·.name)
    · obtain ⟨first, member, back⟩ := List.mem_map.mp again
      have twice := own first member
      rw [back, same, body] at twice
      cases twice
      exact ⟨definition, .called invokes, callee, reaches _ member _ _ asks.has, same.symm⟩
    · obtain ⟨other, runs, recursive⟩ := ih (definition :: seen)
        (List.forall_mem_cons.mpr ⟨same ▸ body, own⟩) (List.nodup_cons.mpr ⟨again, distinct⟩)
        (by
          refine List.forall_mem_cons.mpr ⟨fun _ given has => .direct ⟨given, has⟩, ?_⟩
          intro first member inside given has
          exact (reaches first member callee arguments asks.has).trans body (.direct ⟨given, has⟩))
        (by simp only [List.length_cons]; omega) failed
      exact ⟨other, .inside invokes runs, recursive⟩

end Depth

end FormulaSheet.Sheet
