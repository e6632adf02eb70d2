import FormulaSheet.Proofs.Context.Checking

set_option autoImplicit false

namespace FormulaSheet.Sheet

variable {sheet : Sheet} {run : Function → Callee → Scope → Except Error Answer} {scope : Scope}
  {formula : Formula} {rank : Definition → Nat}

theorem reduce_value (limits : Limits) (source : String) (x : Float) :
    Item.reduce limits source [.value x] = .ok x := rfl

theorem formulaValue_value {part : Part} (value : part.isValue) :
    formulaValue sheet run scope [part] = partValue sheet run scope part := by
  have listed : items sheet run scope (.value none) [part] =
      (partValue sheet run scope part).map fun x => [.value x] := by
    rw [items_value scope _ value]
    cases partValue sheet run scope part <;> rfl
  have reduced : formulaValue sheet run scope [part] =
      (items sheet run scope (.value none) [part]).bind
        (Item.reduce sheet.limits sheet.source) := by
    cases part with
    | operator => contradiction
    | literal | name | bracket | call => rfl
  rw [reduced, listed]
  cases partValue sheet run scope part with
  | error e => rfl
  | ok x => exact reduce_value _ _ x

theorem evaluate_bracket (opening : Site) (inside : Formula) :
    sheet.evaluate scope [.bracket opening inside] = sheet.evaluate scope inside :=
  formulaValue_value rfl

theorem evaluate_name (site : Site) {value : Float} (known : sheet.value? scope site.text = some value) :
    sheet.evaluate scope [.name site] = .ok value := by
  unfold evaluate
  rw [formulaValue_value rfl, partValue, known]

theorem Ranked.run_user (ranked : sheet.Ranked rank) (definition : Definition) (callee : Callee)
    (scope : Scope) : sheet.run (.user definition) callee scope =
      (sheet.evaluate scope definition.body).map .number := by
  have inner : sheet.runFunction (sheet.symbols.definedNames.length + 2) = sheet.run :=
    ranked.run_eq (by omega)
  have outer : sheet.runFunction (sheet.symbols.definedNames.length + 2 + 1) = sheet.run :=
    ranked.run_eq (by omega)
  rw [evaluate, ← outer, runFunction, inner, outer]

theorem partValue_call {callee : Callee} {definition : Definition} {arguments : List Formula}
    {values : List Float} {outcome : Except Error Float}
    (found : sheet.symbols.function? callee.name = some (.user definition))
    (counted : sheet.checkArity callee (.user definition) arguments.length = .ok ())
    (listed : argumentValues sheet run scope arguments = .ok values)
    (answered : run (.user definition) callee (.bind definition.parameters values) =
      outcome.map .number) :
    partValue sheet run scope (.call callee arguments) = outcome := by
  simp only [partValue, found, counted, listed, bind, Except.bind, Function.parameters, answered]
  cases outcome <;> rfl

theorem Ranked.call_eq_body (ranked : sheet.Ranked rank) {callee : Callee}
    {arguments : List Formula} {definition : Definition} {values : List Float}
    (found : sheet.symbols.function? callee.name = some (.user definition))
    (arity : arguments.length = definition.parameters.length)
    (given : arguments.mapM (sheet.evaluate scope) = .ok values) :
    partValue sheet sheet.run scope (.call callee arguments) =
      sheet.evaluate (.bind definition.parameters values) definition.body := by
  have counted : sheet.checkArity callee (.user definition) arguments.length = .ok () :=
    checkArity_eq_ok.mpr arity
  have listed : argumentValues sheet sheet.run scope arguments = .ok values := by
    rw [argumentValues_eq_mapM]
    exact given
  exact partValue_call found counted listed (ranked.run_user _ _ _)

theorem Ranked.evaluate_call (ranked : sheet.Ranked rank) {callee : Callee}
    {arguments : List Formula} {definition : Definition} {values : List Float} {x : Float}
    (found : sheet.symbols.function? callee.name = some (.user definition))
    (arity : arguments.length = definition.parameters.length)
    (given : arguments.mapM (sheet.evaluate scope) = .ok values)
    (body : sheet.evaluate (.bind definition.parameters values) definition.body = .ok x) :
    sheet.evaluate scope [.call callee arguments] = .ok x := by
  unfold evaluate
  rw [formulaValue_value rfl, ranked.call_eq_body found arity given, body]

section Known

theorem conclude_eq_ok {listed : Except Error (List Item)} {x : Float}
    (h : sheet.conclude formula listed = .ok x) : ∃ items, listed = .ok items := by
  unfold conclude at h
  split at h
  · contradiction
  · obtain ⟨items, found, -⟩ := Outcome.bind_eq_ok.mp h
    exact ⟨items, found⟩

theorem items_eq_ok {awaiting : Awaiting} {listed : List Item}
    (h : items sheet run scope awaiting formula = .ok listed) {part : Part}
    (member : part ∈ formula) (value : part.isValue) :
    ∃ x, partValue sheet run scope part = .ok x := by
  replace h := listed_of_items h
  induction h with
  | missing | ended => contradiction
  | value _ known _ ih =>
    rcases List.mem_cons.mp member with rfl | member
    · exact ⟨_, known⟩
    · exact ih member
  | sign _ _ ih | operator _ ih =>
    rcases List.mem_cons.mp member with rfl | member
    · contradiction
    · exact ih member

theorem formulaValue_eq_ok {x : Float} (h : formulaValue sheet run scope formula = .ok x)
    {part : Part} (member : part ∈ formula) (value : part.isValue) :
    ∃ y, partValue sheet run scope part = .ok y := by
  obtain ⟨listed, found⟩ := conclude_eq_ok h
  exact items_eq_ok found member value

theorem constant_of_name {site : Site} {x : Float}
    (h : partValue sheet run .empty (.name site) = .ok x) :
    sheet.symbols.constant? site.text = some x := by
  have known : sheet.value? .empty site.text = sheet.symbols.constant? site.text := by
    simp [value?]
  rw [partValue, known] at h
  cases found : sheet.symbols.constant? site.text with
  | none =>
    rw [found] at h
    contradiction
  | some value =>
    rw [found] at h
    cases h
    rfl

theorem contains_of_constant? {name : String} {x : Float}
    (h : sheet.symbols.constant? name = some x) : sheet.symbols.contains name := by
  unfold SymbolTable.constant? at h
  unfold SymbolTable.contains
  split at h
  next found => simp [found]
  · contradiction

theorem argumentValues_of_call {callee : Callee} {arguments : List Formula} {x : Float}
    (h : partValue sheet run scope (.call callee arguments) = .ok x) :
    ∃ values, arguments.mapM (formulaValue sheet run scope) = .ok values := by
  rw [partValue] at h
  cases found : sheet.symbols.function? callee.name with
  | none =>
    rw [found] at h
    contradiction
  | some f =>
    rw [found] at h
    obtain ⟨_, -, h⟩ := Outcome.bind_eq_ok.mp h
    obtain ⟨values, listed, -⟩ := Outcome.bind_eq_ok.mp h
    rw [argumentValues_eq_mapM] at listed
    exact ⟨values, listed⟩

theorem function_of_call {callee : Callee} {arguments : List Formula} {x : Float}
    (h : partValue sheet run scope (.call callee arguments) = .ok x) :
    ∃ f, sheet.symbols.find? callee.name = some (.function f) ∧
      arguments.length = f.parameters.length := by
  rw [partValue, SymbolTable.function?] at h
  split at h
  next f found =>
    obtain ⟨_, arity, -⟩ := Outcome.bind_eq_ok.mp h
    split at found
    next bound =>
      cases found
      exact ⟨f, bound, checkArity_eq_ok.mp arity⟩
    · contradiction
  · contradiction

theorem checkArgument_of_value {parameters : List String} {x : Float}
    (h : formulaValue sheet run .empty formula = .ok x) :
    sheet.checkArgument parameters formula = .ok () := by
  match formula with
  | [.name site] =>
    rw [formulaValue_value rfl] at h
    rw [checkArgument_name, constant_of_name h]
    exact .inr rfl
  | [] | .literal .. :: _ | .operator _ :: _ | .bracket .. :: _ | .call .. :: _
  | .name _ :: _ :: _ => rfl

theorem checkFormula_of_value {parameters : List String} {names : Bool} {x : Float}
    (h : formulaValue sheet run .empty formula = .ok x) :
    checkFormula sheet parameters names formula = .ok () := by
  induction formula using Formula.nesting_induction generalizing x with
  | step formula inBracket inArgument =>
    rw [checkFormula_eq_ok]
    intro part member
    cases part with
    | literal | operator => rfl
    | name site =>
      obtain ⟨y, found⟩ := formulaValue_eq_ok h member rfl
      rw [checkPart_name]
      intro _ _
      exact contains_of_constant? (constant_of_name found)
    | bracket opening inside =>
      obtain ⟨y, found⟩ := formulaValue_eq_ok h member rfl
      rw [checkPart]
      exact inBracket opening inside member found
    | call callee arguments =>
      obtain ⟨y, found⟩ := formulaValue_eq_ok h member rfl
      obtain ⟨f, bound, arity⟩ := function_of_call found
      obtain ⟨values, listed⟩ := argumentValues_of_call found
      have each : ∀ argument ∈ arguments, ∃ z, formulaValue sheet run .empty argument = .ok z :=
        fun argument given => Outcome.mapM_mem_ok listed given
      rw [checkPart_call, checkCall_eq_ok]
      refine ⟨⟨f, bound, arity, fun argument given => ?_⟩, fun argument given => ?_⟩
      · obtain ⟨z, found⟩ := each argument given
        exact checkArgument_of_value found
      · obtain ⟨z, found⟩ := each argument given
        exact inArgument callee arguments member argument given found

end Known

end FormulaSheet.Sheet
