import FormulaSheet.Proofs.Nesting
import FormulaSheet.Proofs.Outcome
import FormulaSheet.Sheet.Evaluate

set_option autoImplicit false

namespace FormulaSheet

def Scope.Covers (scope : Scope) (names : List String) : Prop :=
  ∀ name ∈ names, (scope.find? name).isSome

theorem Scope.covers_bind {names : List String} {values : List Float}
    (given : values.length = names.length) : (Scope.bind names values).Covers names := by
  intro name member
  have bound : name ∈ (names.zip values).reverse.map Prod.fst := by
    rw [List.map_reverse, List.mem_reverse, List.map_fst_zip (by omega)]
    exact member
  obtain ⟨⟨_, x⟩, present, rfl⟩ := List.mem_map.mp bound
  unfold Scope.find? Scope.bind
  rw [List.lookup_isSome_iff]
  exact ⟨_, present, by simp⟩

namespace Sheet

variable {sheet : Sheet} {run run' : Function → Callee → Scope → Except Error Answer}

theorem items_value (scope : Scope) (awaiting : Awaiting) {part : Part} (value : part.isValue)
    (rest : Formula) :
    items sheet run scope awaiting (part :: rest) = do
      let x ← partValue sheet run scope part
      return .value (awaiting.signed x) :: (← items sheet run scope .operator rest) := by
  cases part with
  | operator o => contradiction
  | literal | name | bracket | call => cases awaiting <;> simp [items]

section Listing

variable (sheet : Sheet) (run : Function → Callee → Scope → Except Error Answer) (scope : Scope)

inductive Listed : Awaiting → Formula → List Item → Prop
  | missing : Listed (.value none) [] []
  | ended : Listed .operator [] []
  | value {awaiting : Awaiting} {part : Part} {rest : Formula} {x : Float} {listed : List Item} :
      part.isValue → partValue sheet run scope part = .ok x → Listed .operator rest listed →
        Listed awaiting (part :: rest) (.value (awaiting.signed x) :: listed)
  | sign {o : Operator} {rest : Formula} {listed : List Item} : o.operation.isSign →
      Listed (.value (some o)) rest listed → Listed (.value none) (.operator o :: rest) listed
  | operator {o : Operator} {rest : Formula} {listed : List Item} :
      Listed (.value none) rest listed → Listed .operator (.operator o :: rest) (.operator o :: listed)

inductive Unlisted : Awaiting → Formula → Error → Prop
  | missing (sign : Operator) : Unlisted (.value (some sign)) []
      (sheet.grammarError (.missingOperand sign.operation) sign.site)
  | unexpected {o : Operator} {rest : Formula} : ¬o.operation.isSign →
      Unlisted (.value none) (.operator o :: rest)
        (sheet.grammarError .unexpectedOperator o.site)
  | repeated (sign : Operator) {o : Operator} {rest : Formula} :
      Unlisted (.value (some sign)) (.operator o :: rest)
        (sheet.grammarError .unexpectedOperator o.site)
  | part {awaiting : Awaiting} {part : Part} {rest : Formula} {e : Error} : part.isValue →
      partValue sheet run scope part = .error e → Unlisted awaiting (part :: rest) e
  | value {awaiting : Awaiting} {part : Part} {rest : Formula} {x : Float} {e : Error} :
      part.isValue → partValue sheet run scope part = .ok x → Unlisted .operator rest e →
        Unlisted awaiting (part :: rest) e
  | sign {o : Operator} {rest : Formula} {e : Error} : o.operation.isSign →
      Unlisted (.value (some o)) rest e → Unlisted (.value none) (.operator o :: rest) e
  | operator {o : Operator} {rest : Formula} {e : Error} :
      Unlisted (.value none) rest e → Unlisted .operator (.operator o :: rest) e

end Listing

theorem listed_of_items {scope : Scope} {awaiting : Awaiting} {formula : Formula}
    {found : List Item} (h : items sheet run scope awaiting formula = .ok found) :
    Listed sheet run scope awaiting formula found := by
  induction formula generalizing awaiting found with
  | nil =>
    rcases awaiting with (_ | sign) | _ <;> cases h
    · exact .missing
    · exact .ended
  | cons part rest ih =>
    by_cases value : part.isValue
    · rw [items_value scope awaiting value] at h
      obtain ⟨x, known, h⟩ := Outcome.bind_eq_ok.mp h
      obtain ⟨others, later, h⟩ := Outcome.bind_eq_ok.mp h
      cases h
      exact .value value known (ih later)
    · cases part with
      | literal | name | bracket | call => exact absurd rfl value
      | operator o =>
        rcases awaiting with (_ | sign) | _
        · simp only [items] at h
          split at h
          next sign => exact .sign sign (ih h)
          · contradiction
        · contradiction
        · obtain ⟨others, later, h⟩ := Outcome.bind_eq_ok.mp h
          cases h
          exact .operator (ih later)

theorem unlisted_of_items {scope : Scope} {awaiting : Awaiting} {formula : Formula} {e : Error}
    (h : items sheet run scope awaiting formula = .error e) :
    Unlisted sheet run scope awaiting formula e := by
  induction formula generalizing awaiting with
  | nil =>
    rcases awaiting with (_ | sign) | _ <;> cases h
    exact .missing sign
  | cons part rest ih =>
    by_cases value : part.isValue
    · rw [items_value scope awaiting value] at h
      rcases Outcome.bind_eq_error.mp h with failed | ⟨x, known, h⟩
      · exact .part value failed
      rcases Outcome.bind_eq_error.mp h with failed | ⟨_, -, h⟩
      · exact .value value known (ih failed)
      · contradiction
    · cases part with
      | literal | name | bracket | call => exact absurd rfl value
      | operator o =>
        rcases awaiting with (_ | sign) | _
        · simp only [items] at h
          split at h
          next sign => exact .sign sign (ih h)
          next other =>
            cases h
            exact .unexpected other
        · cases h
          exact .repeated sign
        · rcases Outcome.bind_eq_error.mp h with failed | ⟨_, -, h⟩
          · exact .operator (ih failed)
          · contradiction

theorem items_congr {scope : Scope} {formula : Formula}
    (same : ∀ part ∈ formula, partValue sheet run scope part = partValue sheet run' scope part)
    (awaiting : Awaiting) :
    items sheet run scope awaiting formula = items sheet run' scope awaiting formula := by
  induction formula generalizing awaiting with
  | nil => rcases awaiting with (_ | sign) | _ <;> rfl
  | cons part rest ih =>
    have later := ih fun part member => same part (List.mem_cons_of_mem _ member)
    by_cases value : part.isValue
    · rw [items_value scope awaiting value, items_value scope awaiting value,
        same part List.mem_cons_self, later]
    · cases part with
      | operator o => rcases awaiting with (_ | sign) | _ <;> simp [items, later]
      | literal | name | bracket | call => exact absurd rfl value

theorem argumentValues_eq_mapM (scope : Scope) (arguments : List Formula) :
    argumentValues sheet run scope arguments =
      arguments.mapM (formulaValue sheet run scope) := by
  induction arguments with
  | nil => rfl
  | cons argument rest ih =>
    rw [argumentValues, ih, List.mapM_cons]
    rfl

theorem formulaValue_congr {formula : Formula}
    (same : ∀ callee arguments f, formula.Has (.call callee arguments) →
      sheet.symbols.function? callee.name = some f → run f callee = run' f callee)
    (scope : Scope) :
    formulaValue sheet run scope formula = formulaValue sheet run' scope formula := by
  induction formula using Formula.nesting_induction with
  | step formula inBracket inArgument =>
    have parts : ∀ part ∈ formula,
        partValue sheet run scope part = partValue sheet run' scope part := by
      intro part member
      cases part with
      | literal | name | operator => rfl
      | bracket opening inside =>
        have inner := inBracket opening inside member fun callee arguments f has =>
          same callee arguments f (has.bracket member)
        simpa only [partValue, formulaValue] using inner
      | call callee arguments =>
        have values : argumentValues sheet run scope arguments =
            argumentValues sheet run' scope arguments := by
          rw [argumentValues_eq_mapM, argumentValues_eq_mapM]
          refine Outcome.mapM_congr fun argument given => ?_
          exact inArgument callee arguments member argument given fun callee arguments f has =>
            same callee arguments f (has.argument member given)
        simp only [partValue, values]
        cases found : sheet.symbols.function? callee.name with
        | none => rfl
        | some f => simp only [same callee arguments f (.here member) found]
    rw [formulaValue, formulaValue, items_congr parts]

end Sheet

def Error.isOwn : Error → Bool
  | grammar .. | arithmetic .. => true
  | naming .. => false
  | internal fault => fault ≠ .callsTooDeep

namespace Item

variable {limits : Limits} {source : String}

theorem sweep_error {operation : Operation} {done items : List Item} {e : Error}
    (h : sweep limits source operation done items = .error e) : e.isOwn := by
  fun_induction sweep limits source operation done items with
  | case1 => contradiction
  | case2 done v rest ih => exact ih h
  | case3 o left done right rest here ih =>
    rcases Outcome.bind_eq_error.mp h with failed | ⟨value, -, later⟩
    · obtain ⟨fault, -, rfl⟩ := Outcome.mapError_eq_error.mp failed
      rfl
    · exact ih value later
  | case4 | case5 =>
    cases h
    rfl
  | case6 done o rest other ih => exact ih h

theorem sweeps_error {levels : List Operation} {items : List Item} {e : Error}
    (h : levels.foldlM (fun items operation => sweep limits source operation [] items) items =
      .error e) : e.isOwn := by
  induction levels generalizing items with
  | nil => contradiction
  | cons operation looser ih =>
    rcases Outcome.bind_eq_error.mp h with failed | ⟨swept, -, later⟩
    · exact sweep_error failed
    · exact ih later

theorem reduce_error {items : List Item} {e : Error} (h : reduce limits source items = .error e) :
    e.isOwn := by
  rcases Outcome.bind_eq_error.mp h with failed | ⟨reduced, -, rest⟩
  · exact sweeps_error failed
  · split at rest <;> cases rest <;> rfl

end Item

namespace Sheet

inductive CallFault (sheet : Sheet) (run : Function → Callee → Scope → Except Error Answer)
    (callee : Callee) (given : Nat) : Error → Prop
  | unknown : sheet.symbols.function? callee.name = none →
      CallFault sheet run callee given
        (sheet.namingError (.unknownFunction callee.name) callee.site)
  | arity {f : Function} {e : Error} : sheet.symbols.function? callee.name = some f →
      sheet.checkArity callee f given = .error e → CallFault sheet run callee given e
  | run {f : Function} {values : List Float} {e : Error} :
      sheet.symbols.function? callee.name = some f → sheet.checkArity callee f given = .ok () →
        values.length = given → run f callee (.bind f.parameters values) = .error e →
        CallFault sheet run callee given e
  | points {f : Function} {scope : Scope} {points : Points} :
      sheet.symbols.function? callee.name = some f → run f callee scope = .ok (.points points) →
        CallFault sheet run callee given (sheet.grammarError .plotCalled callee.site)

variable {sheet : Sheet} {run : Function → Callee → Scope → Except Error Answer}

theorem items_error {scope : Scope} {awaiting : Awaiting} {formula : Formula} {e : Error}
    (h : items sheet run scope awaiting formula = .error e) :
    e.isOwn ∨ ∃ part ∈ formula, partValue sheet run scope part = .error e := by
  replace h := unlisted_of_items h
  induction h with
  | missing | unexpected | repeated => exact .inl rfl
  | part _ failed => exact .inr ⟨_, List.mem_cons_self, failed⟩
  | value _ _ _ ih | sign _ _ ih | operator _ ih =>
    exact ih.imp_right fun ⟨other, member, failed⟩ => ⟨other, List.mem_cons_of_mem _ member, failed⟩

theorem formulaValue_error_of {P : Error → Prop} {scope : Scope} {formula : Formula}
    (level : ∀ within, Formula.Within within formula → ∀ e,
      formulaValue sheet run scope within = .error e →
        (∀ part ∈ within, part.isValue → partValue sheet run scope part ≠ .error e) → P e)
    (unbound : ∀ site, formula.Has (.name site) → sheet.value? scope site.text = none →
      P (sheet.namingError (.unboundVariable site.text) site))
    (call : ∀ callee arguments, formula.Has (.call callee arguments) →
      ∀ e, CallFault sheet run callee arguments.length e → P e)
    {e : Error} (h : formulaValue sheet run scope formula = .error e) : P e := by
  induction formula using Formula.nesting_induction generalizing e with
  | step formula inBracket inArgument =>
    -- The error is that of a value in the formula, or comes up although all its values are found.
    by_cases own : ∃ part ∈ formula, part.isValue ∧ partValue sheet run scope part = .error e
    case neg =>
      refine level formula (.refl formula) e h fun part member value failed => ?_
      exact own ⟨part, member, value, failed⟩
    obtain ⟨part, member, value, failed⟩ := own
    cases part with
    | literal => contradiction
    | operator => contradiction
    | name site =>
      simp only [partValue] at failed
      split at failed
      · contradiction
      next missing =>
        cases failed
        exact unbound site (.here member) missing
    | bracket opening inside =>
      refine inBracket opening inside member ?_ ?_ ?_ failed
      · exact fun within deep => level within (.bracket member deep)
      · exact fun site has => unbound site (has.bracket member)
      · exact fun callee arguments has => call callee arguments (has.bracket member)
    | call callee arguments =>
      have fails := call callee arguments (.here member)
      simp only [partValue] at failed
      cases found : sheet.symbols.function? callee.name with
      | none =>
        rw [found] at failed
        cases failed
        exact fails _ (.unknown found)
      | some f =>
        rw [found] at failed
        rcases Outcome.bind_eq_error.mp failed with failed | ⟨_, arity, failed⟩
        · exact fails _ (.arity found failed)
        rcases Outcome.bind_eq_error.mp failed with failed | ⟨values, bound, failed⟩
        · rw [argumentValues_eq_mapM] at failed
          obtain ⟨argument, given, failed⟩ := Outcome.mapM_error failed
          refine inArgument callee arguments member argument given ?_ ?_ ?_ failed
          · exact fun within deep => level within (.argument member given deep)
          · exact fun site has => unbound site (has.argument member given)
          · exact fun callee arguments has => call callee arguments (has.argument member given)
        rcases Outcome.bind_eq_error.mp failed with failed | ⟨answer, done, failed⟩
        · rw [argumentValues_eq_mapM] at bound
          exact fails _ (.run found arity (Outcome.mapM_length bound) failed)
        · cases answer with
          | number => contradiction
          | points =>
            cases failed
            exact fails _ (.points found done)

inductive Raised (sheet : Sheet) (run : Function → Callee → Scope → Except Error Answer)
    (scope : Scope) (formula : Formula) : Error → Prop
  | own {e : Error} : e.isOwn → Raised sheet run scope formula e
  | unbound {site : Site} : formula.Has (.name site) → sheet.value? scope site.text = none →
      Raised sheet run scope formula (sheet.namingError (.unboundVariable site.text) site)
  | call {callee : Callee} {arguments : List Formula} {e : Error} :
      formula.Has (.call callee arguments) → CallFault sheet run callee arguments.length e →
        Raised sheet run scope formula e

theorem formulaValue_error {scope : Scope} {formula : Formula} {e : Error}
    (h : formulaValue sheet run scope formula = .error e) : Raised sheet run scope formula e := by
  refine formulaValue_error_of ?_ (fun _ has => .unbound has) (fun _ _ has _ => .call has) h
  intro within _ e failed parts
  unfold formulaValue conclude at failed
  split at failed
  · cases failed
    exact .own rfl
  · cases listed : items sheet run scope (.value none) within with
    | error =>
      rw [listed] at failed
      cases failed
      rcases items_error listed with own | ⟨part, member, failed⟩
      · exact .own own
      · by_cases value : part.isValue
        · exact absurd failed (parts part member value)
        · cases part with
          | operator =>
            cases failed
            exact .own rfl
          | literal | name | bracket | call => exact absurd rfl value
    | ok found =>
      rw [listed] at failed
      exact .own (Item.reduce_error failed)

theorem checkArity_eq_ok {callee : Callee} {f : Function} {given : Nat} :
    sheet.checkArity callee f given = .ok () ↔ given = f.parameters.length := by
  simp only [checkArity]
  split
  · simp only [reduceCtorEq, false_iff]
    omega
  · split
    · simp only [reduceCtorEq, false_iff]
      omega
    · simp only [true_iff]
      omega

theorem checkArity_error {callee : Callee} {f : Function} {given : Nat} {e : Error}
    (h : sheet.checkArity callee f given = .error e) :
    ∃ fault, e = sheet.namingError fault callee.site := by
  simp only [checkArity] at h
  split at h
  · cases h
    exact ⟨_, rfl⟩
  · split at h
    · cases h
      exact ⟨_, rfl⟩
    · contradiction

inductive Enters (sheet : Sheet) (run : Function → Callee → Scope → Except Error Answer) :
    Function → Scope → Definition → Scope → Prop
  | user {definition : Definition} {scope : Scope} :
      Enters sheet run (.user definition) scope definition scope
  | plot {definition : Definition} {scope : Scope} {earlier later : List Int} {x : Int}
      {points : Points} :
      sheet.limits.plotRange.toList = earlier ++ x :: later →
      earlier.mapM (sample sheet run definition) = .ok points →
        Enters sheet run (.plot definition) scope definition
          (.bind [definition.parameters.head?.getD "x"] [Float.ofInt x])

theorem Enters.definition? {f : Function} {scope inner : Scope} {definition : Definition}
    (h : Enters sheet run f scope definition inner) : f.definition? = some definition := by
  cases h <;> rfl

theorem samples_error {definition : Definition} {e : Error}
    (h : samples sheet run definition = .error e) :
    ∃ inner, (∀ scope, Enters sheet run (.plot definition) scope definition inner) ∧
      formulaValue sheet run inner definition.body = .error e := by
  obtain ⟨earlier, x, later, points, range, before, failed⟩ := Outcome.mapM_eq_error h
  refine ⟨_, fun scope => .plot range before, ?_⟩
  simp only [sample] at failed
  split at failed
  · contradiction
  next error found =>
    split at failed
    · contradiction
    · cases failed
      exact found

inductive RaisedRunning (sheet : Sheet) (run : Function → Callee → Scope → Except Error Answer)
    (f : Function) (callee : Callee) (scope : Scope) : Error → Prop
  | arithmetic (fault : ArithmeticFault) (position : Position) (left right : Float) :
      RaisedRunning sheet run f callee scope (.arithmetic fault position left right)
  | missing {name : String} {fault : InternalFault} : name ∈ f.parameters →
      scope.argument name = .error fault → RaisedRunning sheet run f callee scope (.internal fault)
  | body {definition : Definition} {inner : Scope} {e : Error} :
      Enters sheet run f scope definition inner →
      formulaValue sheet run inner definition.body = .error e →
        RaisedRunning sheet run f callee scope e
  | noSequence : f = .sequence → sheet.checkedSequence? = none →
      RaisedRunning sheet run f callee scope (sheet.namingError .noSequence callee.site)
  | arity {b : Builtin} {arguments : List Float} {expected given : Nat} : f = .builtin b →
      arguments.length = b.parameters.length →
        b.call arguments = .error (.argumentCount expected given) →
        RaisedRunning sheet run f callee scope
          (sheet.namingError (.argumentCount b.name expected given) callee.site)

theorem argument_error {scope : Scope} {name : String} {fault : InternalFault}
    (h : scope.argument name = .error fault) : fault = .missingArgument name := by
  unfold Scope.argument at h
  split at h
  · contradiction
  · cases h
    rfl

theorem runFunction_error {depth : Nat} {f : Function} {callee : Callee} {scope : Scope}
    {e : Error} (h : sheet.runFunction (depth + 1) f callee scope = .error e) :
    RaisedRunning sheet (sheet.runFunction depth) f callee scope e := by
  cases f with
  | user definition => exact .body .user (Outcome.map_eq_error.mp h)
  | plot definition =>
    obtain ⟨inner, enters, failed⟩ := samples_error (Outcome.map_eq_error.mp h)
    exact .body (enters scope) failed
  | sequence =>
    rcases Outcome.bind_eq_error.mp h with failed | ⟨x, -, h⟩
    · obtain ⟨fault, missing, rfl⟩ := Outcome.mapError_eq_error.mp failed
      exact .missing List.mem_cons_self missing
    rcases Outcome.bind_eq_error.mp h with failed | ⟨_, -, h⟩
    · unfold askSequence at failed
      split at failed
      next missing =>
        cases failed
        exact .noSequence rfl missing
      · obtain ⟨fault, -, rfl⟩ := Outcome.mapError_eq_error.mp failed
        exact .arithmetic fault _ _ _
    · contradiction
  | builtin b =>
    rcases Outcome.bind_eq_error.mp (Outcome.map_eq_error.mp h) with failed | ⟨arguments, found, h⟩
    · obtain ⟨fault, missing, rfl⟩ := Outcome.mapError_eq_error.mp failed
      obtain ⟨name, member, missing⟩ := Outcome.mapM_error missing
      exact .missing member missing
    · have given := Outcome.mapM_length (Outcome.mapError_eq_ok.mp found)
      simp only at h
      split at h
      · split at h
        · contradiction
        · cases h
          exact .arithmetic _ _ _ _
      · cases h
        exact .arithmetic _ _ _ _
      next mismatch =>
        cases h
        exact .arity rfl given mismatch

end Sheet

end FormulaSheet
