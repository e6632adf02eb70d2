import FormulaSheet.Proofs.Running

set_option autoImplicit false

namespace FormulaSheet

def DividesByZero {α : Type} (outcome : Except Error α) : Prop :=
  ∃ e, outcome = .error e ∧ e.isDivisionByZero

section Operators

variable {limits : Limits} {source : String}

inductive Operator.Divides (source : String) (o : Operator) : Error → Prop
  | intro {left right : Float} : o.operation = .divide → right == 0 →
      Operator.Divides source o (.arithmetic .divisionByZero (o.site.locate source) left right)

theorem Operator.divides_of_evaluate {o : Operator} {left right : Float} {e : Error}
    (h : o.evaluate limits source left right = .error e) (division : e.isDivisionByZero) :
    o.Divides source e := by
  obtain ⟨fault, failed, rfl⟩ := Outcome.mapError_eq_error.mp h
  cases fault <;> try contradiction
  unfold Operation.evaluate at failed
  split at failed
  · cases failed
  split at failed
  · cases failed
  split at failed
  · cases failed
  split at failed
  next zero => exact .intro zero.1 zero.2
  · simp only at failed
    split at failed <;> cases failed

namespace Item

theorem sweep_operators {operation : Operation} {done items swept : List Item} {o : Operator}
    (h : sweep limits source operation done items = .ok swept) (member : .operator o ∈ swept) :
    .operator o ∈ done ++ items := by
  fun_induction sweep limits source operation done items with
  | case1 =>
    cases h
    simpa using member
  | case2 done v rest ih => simpa using ih h
  | case3 o' here left done right rest ih =>
    obtain ⟨value, -, h⟩ := Outcome.bind_eq_ok.mp h
    have earlier := ih value h
    simp only [List.mem_append, List.mem_cons, reduceCtorEq, false_or] at earlier ⊢
    exact earlier.imp_right .inr
  | case4 | case5 => contradiction
  | case6 done o' rest other ih =>
    have earlier := ih h
    simp only [List.cons_append, List.mem_cons, List.mem_append] at earlier ⊢
    tauto

theorem sweep_divides {operation : Operation} {done items : List Item} {e : Error}
    (h : sweep limits source operation done items = .error e) (division : e.isDivisionByZero) :
    ∃ o, .operator o ∈ items ∧ o.Divides source e := by
  fun_induction sweep limits source operation done items with
  | case1 => contradiction
  | case2 done v rest ih =>
    obtain ⟨o, member, divides⟩ := ih h
    exact ⟨o, List.mem_cons_of_mem _ member, divides⟩
  | case3 o here left done right rest ih =>
    rcases Outcome.bind_eq_error.mp h with failed | ⟨value, -, h⟩
    · exact ⟨o, List.mem_cons_self, o.divides_of_evaluate failed division⟩
    · obtain ⟨o', member, divides⟩ := ih value h
      exact ⟨o', by simp [member], divides⟩
  | case4 | case5 =>
    cases h
    contradiction
  | case6 done o rest other ih =>
    obtain ⟨o', member, divides⟩ := ih h
    exact ⟨o', List.mem_cons_of_mem _ member, divides⟩

theorem reduce_divides {items : List Item} {e : Error}
    (h : reduce limits source items = .error e) (division : e.isDivisionByZero) :
    ∃ o, .operator o ∈ items ∧ o.Divides source e := by
  have sweeps (levels : List Operation) {items : List Item}
      (h : levels.foldlM (fun items o => sweep limits source o [] items) items = .error e) :
      ∃ o, .operator o ∈ items ∧ o.Divides source e := by
    induction levels generalizing items with
    | nil => contradiction
    | cons operation looser ih =>
      rcases Outcome.bind_eq_error.mp h with failed | ⟨swept, done, h⟩
      · exact sweep_divides failed division
      · obtain ⟨o, member, divides⟩ := ih h
        exact ⟨o, by simpa using sweep_operators done member, divides⟩
  rcases Outcome.bind_eq_error.mp h with failed | ⟨reduced, -, rest⟩
  · exact sweeps _ failed
  · split at rest <;> cases rest <;> contradiction

end Item

end Operators

namespace Sheet

section Relations

inductive CallsWith (sheet : Sheet) (run : Function → Callee → Scope → Except Error Answer)
    (scope : Scope) (formula : Formula) : Callee → Function → List Float → Prop
  | intro {callee : Callee} {arguments : List Formula} {f : Function} {values : List Float} :
      Evaluated sheet run scope (.value none) formula (.call callee arguments) →
      sheet.symbols.function? callee.name = some f →
      sheet.checkArity callee f arguments.length = .ok () →
      argumentValues sheet run scope arguments = .ok values →
        CallsWith sheet run scope formula callee f values

/-- Evaluating the formula in the scope, with calls nested at most so deep, comes to a division by
zero: at one of its own operators, in a builtin or a question to the sequence that it calls, or in
what is evaluated on the way. -/
inductive Divides (sheet : Sheet) : Nat → Scope → Formula → Prop
  | operator {depth : Nat} {scope : Scope} {formula : Formula} {listed : List Item}
      {o : Operator} {e : Error} :
      items sheet (sheet.runFunction depth) scope (.value none) formula = .ok listed →
      .operator o ∈ listed → Item.reduce sheet.limits sheet.source listed = .error e →
      o.Divides sheet.source e → Divides sheet depth scope formula
  | builtin {depth : Nat} {scope : Scope} {formula : Formula} {callee : Callee} {b : Builtin}
      {values given : List Float} :
      CallsWith sheet (sheet.runFunction (depth + 1)) scope formula callee (.builtin b) values →
      b.parameters.mapM (Scope.bind b.parameters values).argument = .ok given →
      b.call given = .error .divisionByZero → Divides sheet (depth + 1) scope formula
  | query {depth : Nat} {scope : Scope} {formula : Formula} {callee : Callee} {s : Sequence}
      {p : Progression} {x : Float} :
      CallsWith sheet (sheet.runFunction (depth + 1)) scope formula callee .sequence [x] →
      sheet.checkedSequence? = some (s, p) →
      p.answer sheet.limits.maxExponent callee.kind x = .error .divisionByZero →
        Divides sheet (depth + 1) scope formula
  | body {depth : Nat} {scope : Scope} {formula : Formula} {callee : Callee}
      {definition : Definition} {values : List Float} :
      CallsWith sheet (sheet.runFunction (depth + 1)) scope formula callee (.user definition)
        values →
      Divides sheet depth (.bind definition.parameters values) definition.body →
        Divides sheet (depth + 1) scope formula
  | bracket {depth : Nat} {scope : Scope} {formula inside : Formula} {opening : Site} :
      Evaluated sheet (sheet.runFunction depth) scope (.value none) formula
        (.bracket opening inside) →
      Divides sheet depth scope inside → Divides sheet depth scope formula
  | argument {depth : Nat} {scope : Scope} {formula argument : Formula} {callee : Callee}
      {f : Function} {earlier later : List Formula} {values : List Float} :
      Evaluated sheet (sheet.runFunction depth) scope (.value none) formula
        (.call callee (earlier ++ argument :: later)) →
      sheet.symbols.function? callee.name = some f →
      sheet.checkArity callee f (earlier ++ argument :: later).length = .ok () →
      argumentValues sheet (sheet.runFunction depth) scope earlier = .ok values →
      Divides sheet depth scope argument → Divides sheet depth scope formula

end Relations

variable {sheet : Sheet} {run : Function → Callee → Scope → Except Error Answer} {scope : Scope}
  {formula : Formula} {e : Error} {depth : Nat}

theorem Evaluated.isValue {awaiting : Awaiting} {part : Part}
    (h : Evaluated sheet run scope awaiting formula part) : part.isValue := by
  induction h with
  | here value => exact value
  | later _ _ _ ih | operator _ ih | sign _ _ ih => exact ih

theorem Evaluated.items_error {awaiting : Awaiting} {part : Part}
    (h : Evaluated sheet run scope awaiting formula part)
    (failed : partValue sheet run scope part = .error e) :
    items sheet run scope awaiting formula = .error e := by
  induction h with
  | @here awaiting _ _ value =>
    rw [items_value scope awaiting value, failed]
    rfl
  | @later awaiting _ _ _ _ value first _ ih =>
    rw [items_value scope awaiting value, first, ih failed]
    rfl
  | operator _ ih =>
    rw [items, ih failed]
    rfl
  | sign sign _ ih =>
    rw [items, if_pos sign, ih failed]

theorem Evaluated.formulaValue_error {part : Part}
    (h : Evaluated sheet run scope (.value none) formula part)
    (failed : partValue sheet run scope part = .error e) :
    formulaValue sheet run scope formula = .error e := by
  unfold formulaValue conclude
  rw [h.items_error failed]
  split
  next o =>
    have alone := h.mem
    rw [List.mem_singleton] at alone
    have value := h.isValue
    rw [alone] at value
    contradiction
  · rfl

theorem CallsWith.formulaValue_error {callee : Callee} {f : Function} {values : List Float}
    (h : CallsWith sheet run scope formula callee f values)
    (failed : run f callee (.bind f.parameters values) = .error e) :
    formulaValue sheet run scope formula = .error e := by
  obtain ⟨evaluated, found, arity, given⟩ := h
  refine evaluated.formulaValue_error ?_
  simp only [partValue, found]
  refine Outcome.bind_eq_error.mpr (.inr ⟨(), arity, ?_⟩)
  refine Outcome.bind_eq_error.mpr (.inr ⟨values, given, ?_⟩)
  exact Outcome.bind_eq_error.mpr (.inl failed)

section Running

theorem runBuiltin_divides {b : Builtin} {site : Site} :
    DividesByZero (sheet.runBuiltin b site scope) ↔
      ∃ given, b.parameters.mapM scope.argument = .ok given ∧
        b.call given = .error .divisionByZero := by
  constructor
  · rintro ⟨e, failed, division⟩
    rcases Outcome.bind_eq_error.mp failed with failed | ⟨given, bound, failed⟩
    · obtain ⟨fault, -, rfl⟩ := Outcome.mapError_eq_error.mp failed
      contradiction
    · refine ⟨given, Outcome.mapError_eq_ok.mp bound, ?_⟩
      simp only at failed
      split at failed
      · split at failed <;> cases failed
        contradiction
      next zero => exact zero
      · cases failed
        contradiction
  · rintro ⟨given, bound, zero⟩
    have listed : (b.parameters.mapM scope.argument).mapError Error.internal = .ok given :=
      Outcome.mapError_eq_ok.mpr bound
    refine ⟨.arithmetic .divisionByZero (site.locate sheet.source) (given[0]?.getD (0 / 0))
      (given[1]?.getD (0 / 0)), Outcome.bind_eq_error.mpr (.inr ⟨given, listed, ?_⟩), rfl⟩
    simp only [zero]

theorem askSequence_divides {site : Site} {kind : CallKind} {x : Float} :
    DividesByZero (sheet.askSequence site kind x) ↔
      ∃ s p, sheet.checkedSequence? = some (s, p) ∧
        p.answer sheet.limits.maxExponent kind x = .error .divisionByZero := by
  unfold askSequence DividesByZero
  cases sheet.checkedSequence? with
  | none =>
    refine ⟨?_, nofun⟩
    rintro ⟨_, ⟨⟩, division⟩
    contradiction
  | some known =>
    obtain ⟨s, p⟩ := known
    constructor
    · rintro ⟨_, failed, division⟩
      obtain ⟨fault, answered, rfl⟩ := Outcome.mapError_eq_error.mp failed
      cases fault <;> try contradiction
      exact ⟨s, p, rfl, answered⟩
    · rintro ⟨_, _, same, failed⟩
      cases same
      exact ⟨_, Outcome.mapError_eq_error.mpr ⟨_, failed, rfl⟩, rfl⟩

theorem samples_kept {definition : Definition} :
    ¬DividesByZero (samples sheet run definition) := by
  rintro ⟨e, failed, division⟩
  obtain ⟨x, -, failed⟩ := Outcome.mapM_error failed
  simp only [sample] at failed
  split at failed
  · contradiction
  · split at failed
    · contradiction
    next other =>
      cases failed
      exact other division

end Running

theorem Divides.fails (h : Divides sheet depth scope formula) :
    DividesByZero (formulaValue sheet (sheet.runFunction depth) scope formula) := by
  induction h with
  | @operator depth scope formula listed o e found member failed divides =>
    refine ⟨e, ?_, by cases divides; rfl⟩
    unfold formulaValue conclude
    split
    next o =>
      -- A formula that is one operator is not listed at all.
      rw [items] at found
      split at found <;> cases found
    · rw [found]
      exact failed
  | @builtin depth scope formula callee b values given calls bound zero =>
    obtain ⟨e, failed, division⟩ := runBuiltin_divides.mpr ⟨given, bound, zero⟩
    exact ⟨e, calls.formulaValue_error (Outcome.map_eq_error.mpr failed), division⟩
  | @query depth scope formula callee s p x calls known zero =>
    obtain ⟨e, failed, division⟩ := askSequence_divides.mpr ⟨s, p, known, zero⟩
    have asked : sheet.runFunction (depth + 1) .sequence callee (.bind ["value"] [x]) = .error e :=
      Outcome.bind_eq_error.mpr (.inr ⟨x, rfl, Outcome.bind_eq_error.mpr (.inl failed)⟩)
    exact ⟨e, calls.formulaValue_error asked, division⟩
  | body calls _ ih =>
    obtain ⟨e, failed, division⟩ := ih
    exact ⟨e, calls.formulaValue_error (Outcome.map_eq_error.mpr failed), division⟩
  | bracket evaluated _ ih =>
    obtain ⟨e, failed, division⟩ := ih
    exact ⟨e, evaluated.formulaValue_error failed, division⟩
  | @argument depth scope formula argument callee f earlier later values evaluated found arity
      before _ ih =>
    obtain ⟨e, failed, division⟩ := ih
    refine ⟨e, evaluated.formulaValue_error ?_, division⟩
    have given : argumentValues sheet (sheet.runFunction depth) scope
        (earlier ++ argument :: later) = .error e := by
      rw [argumentValues_eq_mapM] at before ⊢
      rw [List.mapM_append, List.mapM_cons, before, failed]
      rfl
    simp only [partValue, found]
    refine Outcome.bind_eq_error.mpr (.inr ⟨(), arity, ?_⟩)
    exact Outcome.bind_eq_error.mpr (.inl given)

theorem CallsWith.divides {callee : Callee} {f : Function} {values : List Float}
    (calls : CallsWith sheet (sheet.runFunction depth) scope formula callee f values)
    (inner : ∀ {smaller scope formula}, smaller < depth →
      DividesByZero (formulaValue sheet (sheet.runFunction smaller) scope formula) →
        Divides sheet smaller scope formula)
    (failed : DividesByZero (sheet.runFunction depth f callee (.bind f.parameters values))) :
    Divides sheet depth scope formula := by
  obtain ⟨e, failed, division⟩ := failed
  cases depth with
  | zero =>
    cases failed
    contradiction
  | succ depth =>
    cases f with
    | user definition =>
      exact .body calls (inner (Nat.lt_succ_self _) ⟨e, Outcome.map_eq_error.mp failed, division⟩)
    | plot definition =>
      exact absurd ⟨e, Outcome.map_eq_error.mp failed, division⟩ samples_kept
    | sequence =>
      have asked : ∃ x, values = [x] := by
        obtain ⟨-, -, arity, given⟩ := calls
        rw [argumentValues_eq_mapM] at given
        have count := (Outcome.mapM_length given).trans (checkArity_eq_ok.mp arity)
        exact List.length_eq_one_iff.mp count
      obtain ⟨x, rfl⟩ := asked
      rcases Outcome.bind_eq_error.mp failed with missing | ⟨_, bound, failed⟩
      · cases missing
      cases bound
      rcases Outcome.bind_eq_error.mp failed with failed | ⟨_, -, failed⟩
      · obtain ⟨s, p, known, zero⟩ := askSequence_divides.mp ⟨e, failed, division⟩
        exact .query calls known zero
      · contradiction
    | builtin b =>
      obtain ⟨given, bound, zero⟩ :=
        runBuiltin_divides.mp ⟨e, Outcome.map_eq_error.mp failed, division⟩
      exact .builtin calls bound zero

theorem divides_iff :
    Divides sheet depth scope formula ↔
      DividesByZero (formulaValue sheet (sheet.runFunction depth) scope formula) := by
  refine ⟨Divides.fails, fun fails => ?_⟩
  -- Calls take from the depth; brackets and arguments are smaller at the same depth.
  induction depth using Nat.strongRecOn generalizing scope formula with
  | _ depth deeper =>
    induction formula using Formula.nesting_induction with
    | step formula inBracket inArgument =>
      obtain ⟨e, failed, division⟩ := fails
      have foreign : ∀ o, Error.internal (.loneOperator o) ≠ e := by
        rintro o rfl
        contradiction
      rcases formulaValue_fails foreign failed with listed | ⟨found, listed, reduced⟩
      case inr =>
        obtain ⟨o, member, divides⟩ := Item.reduce_divides reduced division
        exact .operator listed member reduced divides
      have foreign : ∀ fault site, sheet.grammarError fault site ≠ e := by
        rintro fault site rfl
        contradiction
      obtain ⟨part, evaluated, failed⟩ := items_error_evaluated foreign listed
      cases part with
      | literal => cases failed
      | operator =>
        cases failed
        contradiction
      | name site =>
        simp only [partValue] at failed
        split at failed <;> cases failed
        contradiction
      | bracket opening inside =>
        exact .bracket evaluated (inBracket opening inside evaluated.mem ⟨e, failed, division⟩)
      | call callee arguments =>
        cases partValue_call_fails failed with
        | naming | points => contradiction
        | argument found arity before failed =>
          have inside := inArgument callee _ evaluated.mem _ (by simp) ⟨e, failed, division⟩
          exact .argument evaluated found arity before inside
        | run found arity given failed =>
          exact CallsWith.divides ⟨evaluated, found, arity, given⟩ (fun less => deeper _ less)
            ⟨e, failed, division⟩

end Sheet

end FormulaSheet
