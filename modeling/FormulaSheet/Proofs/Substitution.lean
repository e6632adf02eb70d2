import FormulaSheet.Proofs.Context.Calls

set_option autoImplicit false

namespace FormulaSheet

section Substitution

variable (bound : String → Option Float)

mutual

def Part.substitute : Part → Part
  | .literal site value => .literal site value
  | .name site =>
    match bound site.text with
    | some value => .literal site value
    | none => .name site
  | .operator o => .operator o
  | .bracket opening inside => .bracket opening (Formula.substitute inside)
  | .call callee arguments => .call callee (Formula.substituteAll arguments)

def Formula.substitute : List Part → List Part
  | [] => []
  | part :: rest => part.substitute :: Formula.substitute rest

def Formula.substituteAll : List (List Part) → List (List Part)
  | [] => []
  | formula :: rest => Formula.substitute formula :: Formula.substituteAll rest

end

end Substitution

def Definition.applied (definition : Definition) (values : List Float) : Formula :=
  Formula.substitute (fun name => (definition.parameters.zip values).lookup name) definition.body

variable {bound : String → Option Float}

@[simp]
theorem Part.isValue_substitute (part : Part) : (part.substitute bound).isValue = part.isValue := by
  cases part with
  | name site =>
    rw [substitute]
    split <;> rfl
  | literal | operator | bracket | call => rfl

theorem Formula.substituteAll_eq_map (formulas : List Formula) :
    substituteAll bound formulas = formulas.map (substitute bound) := by
  induction formulas with
  | nil => rfl
  | cons formula rest ih => simp [substituteAll, ih]

namespace Sheet

variable {sheet : Sheet} {run : Function → Callee → Scope → Except Error Answer} {scope : Scope}

theorem conclude_substitute (formula : Formula) (listed : Except Error (List Item)) :
    sheet.conclude (Formula.substitute bound formula) listed = sheet.conclude formula listed := by
  rcases formula with _ | ⟨part, _ | ⟨next, rest⟩⟩
  · rfl
  · cases part with
    | name site =>
      simp only [Formula.substitute, Part.substitute]
      split <;> rfl
    | literal | operator | bracket | call => rfl
  · simp [Formula.substitute, conclude]

theorem items_substitute {formula : Formula}
    (same : ∀ part ∈ formula, partValue sheet run .empty (part.substitute bound) =
      partValue sheet run scope part) (awaiting : Awaiting) :
    items sheet run .empty awaiting (Formula.substitute bound formula) =
      items sheet run scope awaiting formula := by
  induction formula generalizing awaiting with
  | nil => rcases awaiting with (_ | sign) | _ <;> rfl
  | cons part rest ih =>
    have later := ih fun part member => same part (List.mem_cons_of_mem _ member)
    by_cases value : part.isValue
    · rw [Formula.substitute, items_value _ _ (by simpa using value), items_value _ _ value,
        same part List.mem_cons_self, later]
    · cases part with
      | operator o =>
        rcases awaiting with (_ | sign) | _ <;>
          simp [Formula.substitute, Part.substitute, items, later]
      | literal | name | bracket | call => exact absurd rfl value

theorem formulaValue_substitute (formula : Formula) :
    formulaValue sheet run .empty (Formula.substitute scope.find? formula) =
      formulaValue sheet run scope formula := by
  induction formula using Formula.nesting_induction with
  | step formula inBracket inArgument =>
    have parts : ∀ part ∈ formula, partValue sheet run .empty (part.substitute scope.find?) =
        partValue sheet run scope part := by
      intro part member
      cases part with
      | literal | operator => rfl
      | name site =>
        rw [Part.substitute]
        split
        next value found => simp [partValue, value?, found]
        next missing => simp [partValue, value?, missing]
      | bracket opening inside =>
        have inner := inBracket opening inside member
        simpa only [Part.substitute, partValue, formulaValue] using inner
      | call callee arguments =>
        have values : argumentValues sheet run .empty
            (Formula.substituteAll scope.find? arguments) =
              argumentValues sheet run scope arguments := by
          rw [argumentValues_eq_mapM, argumentValues_eq_mapM, Formula.substituteAll_eq_map,
            List.mapM_map]
          exact Outcome.mapM_congr fun argument given =>
            inArgument callee arguments member argument given
        have count : (Formula.substituteAll scope.find? arguments).length = arguments.length := by
          rw [Formula.substituteAll_eq_map, List.length_map]
        simp only [Part.substitute, partValue, values, count]
    rw [formulaValue, formulaValue, items_substitute parts, conclude_substitute]

theorem evaluate_substitute (sheet : Sheet) (scope : Scope) (formula : Formula) :
    sheet.evaluate scope formula = sheet.evaluate .empty (Formula.substitute scope.find? formula) :=
  (formulaValue_substitute formula).symm

section Parameters

theorem addParameters_nodup {function : String} {known names : List String}
    {fields : List (List Char)} (distinct : known.Nodup)
    (h : addParameters function known fields = .ok names) : names.Nodup := by
  induction fields generalizing known with
  | nil =>
    cases h
    exact distinct
  | cons field rest ih =>
    rw [addParameters] at h
    split at h
    · contradiction
    split at h
    · contradiction
    next fresh => exact ih (List.nodup_append.mpr ⟨distinct, by simp, by grind⟩) h

theorem readParameters_nodup {function : String} {text : List Char} {names : List String}
    (h : readParameters function text = .ok names) : names.Nodup := by
  unfold readParameters at h
  split at h
  · cases h
    exact .nil
  · exact addParameters_nodup .nil h

def Distinct (sheet : Sheet) : Prop :=
  ∀ name definition, sheet.symbols.function? name = some (.user definition) →
    definition.parameters.Nodup

theorem Reachable.distinct (reachable : sheet.Reachable) : sheet.Distinct := by
  have all := reachable.forall_functions
    (P := fun _ _ f => ∀ definition, f = .user definition → definition.parameters.Nodup)
    ?given ?user ?plot ?sequence
  · exact fun name definition found => all name _ found definition rfl
  case given =>
    rintro _ _ _ found definition rfl
    obtain ⟨b, -, same⟩ := SymbolTable.function?_withBuiltins found
    contradiction
  case user =>
    rintro _ _ _ _ _ _ given _ _ ⟨⟩
    exact readParameters_nodup given
  case plot => exact fun _ _ _ _ => nofun
  case sequence => exact fun _ _ => nofun

end Parameters

end Sheet

theorem Scope.find?_bind {names : List String} (distinct : names.Nodup) (values : List Float)
    (name : String) : (bind names values).find? name = (names.zip values).lookup name := by
  unfold find? bind
  induction names generalizing values with
  | nil => rfl
  | cons first rest ih =>
    obtain ⟨fresh, distinct⟩ := List.nodup_cons.mp distinct
    cases values with
    | nil => rfl
    | cons value values =>
      rw [List.zip_cons_cons, List.reverse_cons, List.lookup_append, ih distinct]
      by_cases same : name = first
      · subst same
        have missing : (rest.zip values).lookup name = none := by
          refine List.lookup_eq_none_iff.mpr fun binding member => ?_
          have known := (List.of_mem_zip (by simpa using member)).1
          grind
        simp [missing]
      · simp [List.lookup_cons, beq_false_of_ne same]

namespace Sheet

variable {sheet : Sheet} {scope : Scope} {rank : Definition → Nat}

theorem Ranked.call_substitutes (ranked : sheet.Ranked rank) (distinct : sheet.Distinct)
    {callee : Callee} {definition : Definition} {arguments : List Formula} {values : List Float}
    (found : sheet.symbols.function? callee.name = some (.user definition))
    (arity : arguments.length = definition.parameters.length)
    (given : arguments.mapM (sheet.evaluate scope) = .ok values) :
    sheet.evaluatePart scope (.call callee arguments) =
      sheet.evaluate .empty (definition.applied values) := by
  have bound : (Scope.bind definition.parameters values).find? =
      fun name => (definition.parameters.zip values).lookup name :=
    funext (Scope.find?_bind (distinct _ _ found) values)
  rw [evaluatePart, ranked.call_eq_body found arity given, evaluate_substitute, bound,
    Definition.applied]

/-- On a sheet that was read without an error, a formula has in a scope the value, or the error,
that it has without one once the names bound there are replaced by literals. So a call of a user
function comes to its body with the values of the arguments in place of the parameters, whatever
else is bound where the call stands. -/
theorem evaluate_by_substitution (source : String) (limits : Limits) (sheet : Sheet)
    (statements : List Statement)
    (parsed : (ofSource source limits).parse = (sheet, .ok statements)) :
    (∀ scope formula, sheet.evaluate scope formula =
      sheet.evaluate .empty (Formula.substitute scope.find? formula)) ∧
      ∀ callee definition, sheet.symbols.function? callee.name = some (.user definition) →
        ∀ scope (arguments : List Formula) values,
          arguments.length = definition.parameters.length →
          arguments.mapM (sheet.evaluate scope) = .ok values →
            sheet.evaluatePart scope (.call callee arguments) =
              sheet.evaluate .empty (definition.applied values) := by
  have reachable := reachable_of_parse parsed
  obtain ⟨entered, raw, passed⟩ := parse_eq_ok parsed
  obtain ⟨rank, ranked⟩ := reachable.coherent.ranked passed.selfCalls
  refine ⟨sheet.evaluate_substitute, ?_⟩
  intro callee definition found scope arguments values arity given
  exact ranked.call_substitutes reachable.distinct found arity given

-- The parameter `E` hides the constant in the body of `f`, but not in that of `g`.
theorem evaluate_by_substitution_hiding :
    ∃ sheet statements,
      (ofSource "f(E, a)=a*(E-g(a))\ng(a)=2a-E" {}).parse = (sheet, .ok statements) ∧
      ∃ definition, sheet.symbols.function? "f" = some (.user definition) ∧
        sheet.evaluatePart (.bind ["a", "E"] [5, 7])
            (.call ⟨⟨"f", ⟨0, 1, 1⟩⟩, "f", .plain⟩
              [[.bracket ⟨"(", ⟨2, 1, 3⟩⟩ [.name ⟨"a", ⟨3, 1, 4⟩⟩]], [.name ⟨"E", ⟨7, 1, 8⟩⟩]]) =
          sheet.evaluate .empty (definition.applied [5, 7]) ∧
        sheet.evaluate .empty (definition.applied [5, 7]) =
          .ok (7 * (5 - (2 * 7 - 2.718281828459045))) := by
  obtain ⟨sheet, statements, parsed⟩ := eq_ok_of_isSome
    (by decide +kernel : (ofSource "f(E, a)=a*(E-g(a))\ng(a)=2a-E" {}).parse.2.toOption.isSome)
  refine ⟨sheet, statements, parsed, ?_⟩
  have arity : ((ofSource "f(E, a)=a*(E-g(a))\ng(a)=2a-E" {}).parse.1.userBody? "f").map
      (·.parameters.length) = some 2 := by decide +kernel
  have value : (ofSource "f(E, a)=a*(E-g(a))\ng(a)=2a-E" {}).parse.1.evaluatePart
      (.bind ["a", "E"] [5, 7]) (.call ⟨⟨"f", ⟨0, 1, 1⟩⟩, "f", .plain⟩
        [[.bracket ⟨"(", ⟨2, 1, 3⟩⟩ [.name ⟨"a", ⟨3, 1, 4⟩⟩]], [.name ⟨"E", ⟨7, 1, 8⟩⟩]]) =
      .ok (7 * (5 - (2 * 7 - 2.718281828459045))) := by decide +kernel
  rw [parsed] at arity value
  obtain ⟨definition, found, arity⟩ := Option.map_eq_some_iff.mp arity
  have given : [[.bracket ⟨"(", ⟨2, 1, 3⟩⟩ [.name ⟨"a", ⟨3, 1, 4⟩⟩]], [.name ⟨"E", ⟨7, 1, 8⟩⟩]].mapM
      (sheet.evaluate (.bind ["a", "E"] [5, 7])) = .ok [5, 7] := by
    have one : sheet.evaluate (.bind ["a", "E"] [5, 7])
        [.bracket ⟨"(", ⟨2, 1, 3⟩⟩ [.name ⟨"a", ⟨3, 1, 4⟩⟩]] = .ok 5 :=
      (evaluate_bracket _ _).trans (evaluate_name _ rfl)
    have two : sheet.evaluate (.bind ["a", "E"] [5, 7]) [.name ⟨"E", ⟨7, 1, 8⟩⟩] = .ok 7 :=
      evaluate_name _ rfl
    rw [List.mapM_cons, List.mapM_cons, List.mapM_nil, one, two]
    rfl
  refine ⟨definition, userBody?_eq_some.mp found, ?called, Eq.trans (Eq.symm ?called) value⟩
  exact (evaluate_by_substitution _ _ _ _ parsed).2 ⟨⟨"f", ⟨0, 1, 1⟩⟩, "f", .plain⟩ definition
    (userBody?_eq_some.mp found) _ _ _ arity.symm given

end Sheet

end FormulaSheet
