import FormulaSheet.Proofs.Internal
import FormulaSheet.Proofs.Places.Evaluation

set_option autoImplicit false

namespace FormulaSheet

namespace Sheet

variable {sheet next : Sheet}

section Checks

theorem checkArity_placed {callee : Callee} (here : callee.site.place.InLine sheet.source)
    (f : Function) (given : Nat) :
    Yields sheet.source (fun _ => True) (sheet.checkArity callee f given) where
  value := fun _ _ => trivial
  error := by
    intro e failed
    obtain ⟨fault, rfl⟩ := checkArity_error failed
    exact reports_at here rfl

theorem checkCall_placed {callee : Callee} (here : callee.site.place.InLine sheet.source)
    {arguments : List Formula} (placed : ∀ argument ∈ arguments, argument.Placed sheet.source)
    (parameters : List String) :
    Yields sheet.source (fun _ => True) (sheet.checkCall parameters callee arguments) := by
  unfold checkCall
  split
  · refine (checkArity_placed here _ _).bind fun _ _ => .forM fun argument member => ?_
    have given := placed argument member
    unfold checkArgument
    split
    next site =>
      split
      · exact .ok trivial
      · exact .fail (reports_at (given _ List.mem_cons_self).here rfl)
    · exact .ok trivial
  · exact .fail (reports_at here rfl)
  · exact .fail (reports_at here rfl)

theorem checkFormula_placed (parameters : List String) (names : Bool) {formula : Formula}
    (placed : formula.Placed sheet.source) :
    Yields sheet.source (fun _ => True) (checkFormula sheet parameters names formula) := by
  induction formula using Formula.nesting_induction with
  | step formula inBracket inArgument =>
    rw [checkFormula_eq_forM]
    refine .forM fun part member => ?_
    have given := placed part member
    cases part with
    | literal | operator => exact .ok trivial
    | name site =>
      rw [checkPart]
      split
      · exact .fail (reports_at given.here rfl)
      · exact .ok trivial
    | bracket opening inside =>
      rw [checkPart]
      exact inBracket opening inside member given.inside
    | call callee arguments =>
      rw [checkPart, checkFormulas_eq_forM]
      refine (checkCall_placed given.here given.arguments parameters).bind fun _ _ => .forM ?_
      exact fun argument present => inArgument callee arguments member argument present
        (given.arguments argument present)

theorem Placed.checkFunction (placed : sheet.Placed) {f : Function}
    (member : f ∈ sheet.symbols.definitions) :
    Yields sheet.source (fun _ => True) (sheet.checkFunction f) := by
  obtain ⟨name, -, found⟩ := SymbolTable.mem_definitions.mp member
  unfold Sheet.checkFunction
  split
  next definition given => exact checkFormula_placed _ _ (placed.bodies name f definition found given)
  · exact .ok trivial

theorem checkStatement_placed {statement : Statement}
    (placed : statement.body.Placed sheet.source) :
    Yields sheet.source (fun _ => True) (sheet.checkStatement statement) := by
  cases statement with
  | formula formula => exact checkFormula_placed _ _ placed
  | plot definition => exact checkFormula_placed _ _ placed

theorem callTo_mem {root : String} {unexplored : List Definition} {pending : List Callee}
    {callee : Callee} (h : callTo root unexplored pending = some callee) :
    callee ∈ pending ∨ ∃ definition ∈ unexplored, callee ∈ definition.calls := by
  fun_induction callTo root unexplored pending with
  | case1 => contradiction
  | case2 unexplored first rest same =>
    cases h
    exact .inl List.mem_cons_self
  | case3 unexplored first rest other missing ih =>
    exact (ih h).imp_left (List.mem_cons_of_mem _)
  | case4 unexplored first rest other definition found ih =>
    rcases ih h with member | ⟨further, member, called⟩
    · rcases List.mem_append.mp member with member | member
      · exact .inr ⟨definition, List.mem_of_find?_eq_some found, List.mem_reverse.mp member⟩
      · exact .inl (List.mem_cons_of_mem _ member)
    · exact .inr ⟨further, (List.mem_filter.mp member).1, called⟩

theorem Placed.checkSelfCalls (placed : sheet.Placed) :
    Yields sheet.source (fun _ => True) sheet.checkSelfCalls := by
  have called {f : Function} {definition : Definition} (member : f ∈ sheet.symbols.definitions)
      (given : f.definition? = some definition) :
      ∀ callee ∈ definition.calls, callee.site.place.InLine sheet.source := by
    intro callee calls
    obtain ⟨name, -, found⟩ := SymbolTable.mem_definitions.mp member
    obtain ⟨arguments, has⟩ := Formula.mem_calls_iff_has.mp calls
    exact (placed.bodies name f definition found given).has has
  refine .forM fun f member => ?_
  unfold checkRecursion
  split
  · exact .ok trivial
  next definition given =>
    split
    next callee self =>
      refine .fail (reports_at ?_ rfl)
      rcases callTo_mem self with calls | ⟨other, member, calls⟩
      · exact called member given callee (List.mem_reverse.mp calls)
      · obtain ⟨g, member, given⟩ := List.mem_filterMap.mp member
        cases g with
        | user =>
          cases given
          exact called member rfl callee calls
        | plot | sequence | builtin => contradiction
    · exact .ok trivial

end Checks

section Terms

theorem Placed.termValue (placed : sheet.Placed) {site : Site}
    (here : site.place.InLine sheet.source) {term : Capture} (inline : term.Inline sheet.source) :
    Yields sheet.source (fun _ => True) (sheet.termValue site term) := by
  refine ((Formula.building_placed sheet.source).2 .arguments term inline).bind
    fun formulas built => ?_
  split
  next formula =>
    have given := built formula List.mem_cons_self
    exact (checkFormula_placed [] false given).bind fun _ _ =>
      ⟨fun _ _ => trivial, fun _ failed => placed.evaluate given failed⟩
  · exact .fail (reports_at here rfl)

theorem ofTerms_placed {site : Site} (here : site.place.InLine sheet.source)
    (first second : Float) (third : Option Float) : Yields sheet.source (fun _ => True)
      (Progression.ofTerms (site.locate sheet.source) first second third) := by
  have quotient (numerator denominator : Float) : Yields sheet.source (fun _ => True)
      (Progression.quotient (site.locate sheet.source) numerator denominator) := by
    unfold Progression.quotient
    split
    · exact .fail (reports_at here rfl)
    · exact .ok trivial
  refine (quotient second first).bind fun ratio _ => ?_
  split
  · exact .ok trivial
  next third =>
    refine (quotient third second).bind fun other _ => ?_
    split
    · exact .ok trivial
    · exact .fail (reports_at here rfl)

theorem Placed.progressionOf (placed : sheet.Placed) {s : Sequence}
    (here : s.site.place.InLine sheet.source) (inline : ∀ term ∈ s.terms, term.Inline sheet.source) :
    Yields sheet.source (fun _ => True) (sheet.progressionOf s) := by
  have value {term : Capture} (member : term ∈ s.terms) :
      Yields sheet.source (fun _ => True) (sheet.termValue s.site term) :=
    placed.termValue here (inline term member)
  rw [progressionOf_eq]
  split
  · exact .fail (reports_at here rfl)
  · refine (value (by simp [Sequence.terms])).bind fun first _ => ?_
    refine (value (by simp [Sequence.terms])).bind fun second _ => ?_
    refine .bind (P := fun _ => True) ?_ fun third _ => ofTerms_placed here _ _ _
    cases kept : s.third.filter Capture.isGiven with
    | none => exact .ok trivial
    | some third =>
      have third : third ∈ s.terms := by
        have present := (Option.filter_eq_some_iff.mp kept).1
        simp [Sequence.terms, present]
      exact (value third).map fun _ _ => trivial

theorem Placed.checkSequence (placed : sheet.Placed) :
    Yields sheet.source (fun next => next.source = sheet.source ∧ next.Placed)
      sheet.checkSequence := by
  unfold Sheet.checkSequence
  split
  · exact .ok ⟨rfl, placed⟩
  next s found =>
    have bare : Placed { sheet with sequence? := none } := ⟨placed.bodies, nofun⟩
    obtain ⟨here, inline⟩ := placed.sequence s found
    refine (bare.progressionOf here inline).map fun progression _ => ⟨rfl, placed.bodies, ?_⟩
    rintro _ ⟨⟩
    exact ⟨here, inline⟩

end Terms

section Definitions

theorem Placed.bind (placed : sheet.Placed) (name : String) {f : Function}
    {sequence? : Option Sequence}
    (bodies : ∀ definition, f.definition? = some definition → definition.body.Placed sheet.source)
    (sequence : ∀ s, sequence? = some s → s.site.place.InLine sheet.source ∧
      ∀ term ∈ s.terms, term.Inline sheet.source) :
    Placed { sheet with symbols := sheet.symbols.define name f, sequence? } where
  bodies := by
    have all : ∀ other g, (sheet.symbols.define name f).function? other = some g →
        ∀ definition, g.definition? = some definition → definition.body.Placed sheet.source :=
      SymbolTable.forall_function?_define (fun other g found definition given =>
        placed.bodies other g definition found given) bodies
    exact fun other g definition found given => all other g found definition given
  sequence := sequence

theorem readBody_placed {site : Site} (here : site.place.InLine sheet.source) {body : Capture}
    (inline : body.Inline sheet.source) :
    Yields sheet.source (·.Placed sheet.source) (sheet.readBody site body) := by
  refine ((Formula.building_placed sheet.source).2 .statements body inline).bind
    fun formulas built => ?_
  split
  · exact .ok (built _ List.mem_cons_self)
  · exact .fail (reports_at here rfl)
  · exact .fail (reports_at here rfl)

theorem Placed.define (placed : sheet.Placed) {site : Site} (here : site.place.InLine sheet.source)
    {outline : Outline} (inline : ∀ capture ∈ outline.captures, capture.Inline sheet.source) :
    Yields sheet.source (fun (next, statements) => next.source = sheet.source ∧ next.Placed ∧
      ∀ statement ∈ statements, statement.body.Placed sheet.source) (sheet.define site outline) := by
  cases outline with
  | function name parameters body =>
    refine .bind (P := fun next => next.source = sheet.source ∧ next.Placed) ?_
      fun next ⟨same, placed⟩ => .ok ⟨same, placed, by simp⟩
    unfold defineFunction
    split
    · exact .fail (reports_at here rfl)
    refine .bind (P := fun _ => True) (.mapError (fun _ _ => trivial) fun _ => reports_at here rfl)
      fun names _ => ?_
    refine (readBody_placed here (inline body (by simp [Outline.captures]))).bind
      fun formula given => .ok ⟨rfl, placed.bind _ ?_ placed.sequence⟩
    rintro _ ⟨⟩
    exact given
  | plot body =>
    refine .bind (P := (·.body.Placed sheet.source)) ?_ fun definition given => .ok ⟨rfl, ?_, ?_⟩
    · exact (readBody_placed here (inline body (by simp [Outline.captures]))).bind
        fun _ given => .ok given
    · refine placed.bind _ ?_ placed.sequence
      rintro _ ⟨⟩
      exact given
    · exact List.forall_mem_singleton.mpr given
  | sequence first second third =>
    refine .bind (P := fun next => next.source = sheet.source ∧ next.Placed) ?_
      fun next ⟨same, placed⟩ => .ok ⟨same, placed, by simp⟩
    unfold defineSequence
    split
    · exact .fail (reports_at here rfl)
    · have large : Placed { sheet with symbols := sheet.symbols.define "S" .sequence } :=
        placed.bind _ nofun placed.sequence
      refine .ok ⟨rfl, large.bind _ nofun ?_⟩
      rintro _ ⟨⟩
      exact ⟨here, inline⟩

theorem Placed.rawStatements (placed : sheet.Placed) {tokens : List Token}
    (given : ∀ token ∈ tokens, token.Placed sheet.source) :
    (sheet.rawStatements tokens).1.source = sheet.source ∧ (sheet.rawStatements tokens).1.Placed ∧
      Yields sheet.source (fun statements => ∀ statement ∈ statements,
        statement.body.Placed sheet.source) (sheet.rawStatements tokens).2 := by
  have chained {source : String} {tokens : List Token}
      (given : ∀ token ∈ tokens, token.Placed source) :
      Yields source (·.Placed source) (Formula.chain source [] tokens) :=
    (Formula.building_placed source).1 [] tokens (by simp [Formula.Placed]) given
  have defining {source : String} {tokens : List Token}
      (given : ∀ token ∈ tokens, token.Placed source) {site : Site} {outline : Outline}
      {rest : List Token} (stop : Formula.lineEnd 0 tokens = .definition site outline rest) :
      site.place.InLine source ∧ (∀ capture ∈ outline.captures, capture.Inline source) ∧
        rest ⊆ tokens := by
    have ends := Formula.lineEnd_mem 0 tokens
    rw [stop] at ends
    obtain ⟨within, token, member, rfl, shape⟩ := ends
    have first := given token member
    exact ⟨first.site (by simp [shape]), fun capture present =>
      first.captures capture (by simpa [shape, Shape.captures] using present), within⟩
  fun_induction Sheet.rawStatements sheet tokens with
  | case1 sheet tokens e failed =>
    exact ⟨rfl, placed, .fail ((chained given).error e failed)⟩
  | case2 sheet tokens formula found stop =>
    exact ⟨rfl, placed, .ok (List.forall_mem_singleton.mpr ((chained given).value _ found))⟩
  | case3 sheet tokens formula found rest stop next others read ih =>
    have ends := Formula.lineEnd_mem 0 tokens
    rw [stop] at ends
    have later := ih placed fun token member => given token (ends member)
    rw [read] at later
    obtain ⟨same, reached, yields⟩ := later
    refine ⟨same, reached, yields.map fun statements each => ?_⟩
    exact List.forall_mem_cons.mpr ⟨(chained given).value _ found, each⟩
  | case4 sheet tokens formula found site outline rest stop nonempty =>
    exact ⟨rfl, placed, .fail (reports_at (defining given stop).1 rfl)⟩
  | case5 sheet tokens formula found site outline rest stop empty e failed =>
    obtain ⟨here, inline, -⟩ := defining given stop
    exact ⟨rfl, placed, .fail ((placed.define here inline).error e failed)⟩
  | case6 sheet tokens formula found site outline rest stop empty middle defined entered next
      others read ih =>
    obtain ⟨here, inline, within⟩ := defining given stop
    obtain ⟨own, reached, lines⟩ := (placed.define here inline).value _ entered
    have later := ih reached fun token member =>
      own ▸ given token (within (skipSeparator_subset rest member))
    rw [read] at later
    obtain ⟨same, last, yields⟩ := later
    refine ⟨same.trans own, last, ?_⟩
    rw [own] at yields
    exact yields.map fun statements each => List.forall_mem_append.mpr ⟨lines, each⟩

end Definitions

section Runs

variable {raw statements : List Statement}

theorem finishStatements_placed {source : String}
    (placed : ∀ statement ∈ raw, statement.body.Placed source) :
    Yields source (fun statements => ∀ statement ∈ statements, statement.body.Placed source)
      (finishStatements source raw) := by
  fun_induction finishStatements source raw with
  | case1 => exact .ok (by simp)
  | case2 rest ih => exact ih (List.forall_mem_cons.mp placed).2
  | case3 formula rest nonempty ih =>
    obtain ⟨first, later⟩ := List.forall_mem_cons.mp placed
    exact first.finish.bind fun finished here => (ih later).bind fun others there =>
      .ok (List.forall_mem_cons.mpr ⟨here, there⟩)
  | case4 definition rest ih =>
    obtain ⟨first, later⟩ := List.forall_mem_cons.mp placed
    exact (ih later).bind fun others there => .ok (List.forall_mem_cons.mpr ⟨first, there⟩)

theorem Placed.check (placed : sheet.Placed)
    (lines : ∀ statement ∈ raw, statement.body.Placed sheet.source) :
    (sheet.check raw).1.source = sheet.source ∧ (sheet.check raw).1.Placed ∧
      Yields sheet.source (fun _ => True) (sheet.check raw).2 := by
  have checking : Yields sheet.source (fun next => next.source = sheet.source ∧ next.Placed)
      (raw.forM sheet.checkStatement >>= fun _ => sheet.checkSequence) :=
    .bind (.forM fun statement member => checkStatement_placed (lines statement member)) fun _ _ =>
      placed.checkSequence
  unfold Sheet.check
  split
  next e failed => exact ⟨rfl, placed, .fail (checking.error e failed)⟩
  next checked done =>
    obtain ⟨same, reached⟩ := checking.value checked done
    refine ⟨same, reached, ?_⟩
    rw [← same]
    exact .bind (.forM fun f member => reached.checkFunction member) fun _ _ =>
      reached.checkSelfCalls

theorem placed_ofSource (source : String) (limits : Limits) : (ofSource source limits).Placed where
  bodies := by
    intro name f definition found given
    obtain ⟨b, -, rfl⟩ := SymbolTable.function?_withBuiltins found
    contradiction
  sequence := nofun

theorem Placed.readTokens (placed : sheet.Placed) {tokens : List Token}
    (given : ∀ token ∈ tokens, token.Placed sheet.source) :
    (sheet.readTokens tokens).1.source = sheet.source ∧ (sheet.readTokens tokens).1.Placed ∧
      Yields sheet.source (fun statements => ∀ statement ∈ statements,
        statement.body.Placed sheet.source) (sheet.readTokens tokens).2 := by
  have defined := placed.rawStatements given
  unfold Sheet.readTokens
  split
  next entered e failed =>
    rw [failed] at defined
    exact ⟨defined.1, defined.2.1, .fail (defined.2.2.error e rfl)⟩
  next entered raw found =>
    rw [found] at defined
    obtain ⟨own, reached, lines⟩ := defined
    have lines := lines.value raw rfl
    have checked := reached.check (own.symm ▸ lines)
    split
    next last e failed =>
      rw [failed] at checked
      exact ⟨checked.1.trans own, checked.2.1, .fail (own ▸ checked.2.2.error e rfl)⟩
    next last passed =>
      rw [passed] at checked
      have same := checked.1.trans own
      refine ⟨same, checked.2.1, ?_⟩
      rw [same]
      exact finishStatements_placed lines

theorem parse_placed (source : String) (limits : Limits) :
    (ofSource source limits).parse.1.source = source ∧ (ofSource source limits).parse.1.Placed ∧
      Yields source (fun statements => ∀ statement ∈ statements, statement.body.Placed source)
        (ofSource source limits).parse.2 := by
  have placed := placed_ofSource source limits
  have reading := Token.readAll_placed source
  unfold parse
  split
  next e failed =>
    refine ⟨rfl, placed, .fail ?_⟩
    unfold Token.Reading.toExcept at failed
    split at failed
    next found =>
      cases failed
      exact reading.2 _ found
    · contradiction
  next tokens read =>
    refine placed.readTokens ?_
    unfold Token.Reading.toExcept at read
    split at read
    · contradiction
    · cases read
      exact reading.1

theorem Placed.output (placed : sheet.Placed) {statement : Statement}
    (given : statement.body.Placed sheet.source) {plotNumber : Nat} {e : Error}
    (h : sheet.output plotNumber statement = .error e) : Reports sheet.source e := by
  cases statement with
  | formula formula => exact placed.evaluate given (Outcome.map_eq_error.mp h)
  | plot definition =>
    obtain ⟨scope, -, failed⟩ := samples_error (Outcome.map_eq_error.mp h)
    exact placed.evaluate given failed

theorem runAll_reports {source : String} {limits : Limits} {e : Error}
    (failed : (ofSource source limits).runAll.2 = .error e) : Reports source e := by
  obtain ⟨own, placed, parsed⟩ := parse_placed source limits
  rcases runAll_eq_error failed with failed | ⟨next, statements, read, statement, member, number,
    failed⟩
  · exact parsed.error e failed
  · rw [read] at own placed parsed
    have given := parsed.value statements rfl statement member
    rw [← own] at given ⊢
    exact placed.output given failed

end Runs

end Sheet

end FormulaSheet
