import FormulaSheet.Proofs.Evaluation
import FormulaSheet.Proofs.Parsed
import FormulaSheet.Proofs.Recursion
import Mathlib.Data.Finset.Card

set_option autoImplicit false

namespace FormulaSheet.Sheet

variable {sheet : Sheet}

def Calls (sheet : Sheet) (caller definition : Definition) : Prop :=
  ∃ callee, caller.HasCall callee ∧ sheet.body? callee.name = some definition

section Ranks

theorem Coherent.plot_unique (coherent : sheet.Coherent) {name other : String}
    {plot definition : Definition}
    (found : sheet.symbols.function? name = some (.plot plot))
    (again : sheet.symbols.function? other = some (.plot definition)) : plot = definition := by
  have first := (coherent _ _ found).2.1
  have second := (coherent _ _ again).2.1
  rw [first] at found
  rw [second, found] at again
  cases again
  rfl

theorem Coherent.reaches_plot (coherent : sheet.Coherent) {definition : Definition}
    {target : Callee} (h : Reaches sheet.body? definition target) :
    Reaches sheet.userBody? definition target ∨
      ∃ step plot, Reaches sheet.userBody? definition step ∧
        sheet.symbols.function? step.name = some (.plot plot) ∧
        Reaches sheet.userBody? plot target := by
  induction h with
  | direct has => exact .inl (.direct has)
  | @through definition next callee target has first _ ih =>
    rcases body?_eq_some.mp first with user | called
    · have first := userBody?_eq_some.mpr user
      rcases ih with later | ⟨step, plot, before, found, after⟩
      · exact .inl (.through has first later)
      · exact .inr ⟨step, plot, .through has first before, found, after⟩
    · rcases ih with later | ⟨step, plot, -, found, after⟩
      · exact .inr ⟨callee, next, .direct has, called, later⟩
      · rw [coherent.plot_unique found called] at after
        exact .inr ⟨callee, next, .direct has, called, after⟩

theorem Coherent.no_return (coherent : sheet.Coherent) (checked : sheet.checkSelfCalls = .ok ())
    {definition : Definition} (own : sheet.body? definition.name = some definition)
    {callee : Callee} (h : Reaches sheet.body? definition callee) :
    callee.name ≠ definition.name := by
  have apart := coherent.checkSelfCalls_eq_ok.mp checked
  intro back
  rcases coherent.reaches_plot h with reached | ⟨step, plot, before, found, after⟩
  · exact apart definition own callee reached back
  · have plotOwn : sheet.body? plot.name = some plot := by
      rw [(coherent _ _ found).1]
      exact body?_eq_some.mpr (.inr found)
    have named : step.name = plot.name := (coherent _ _ found).1.symm
    -- The plot comes back to itself by way of the definition, if it is not the definition.
    rcases body?_eq_some.mp own with user | called
    · have follows : sheet.userBody? callee.name = some definition := by
        rw [back]
        exact userBody?_eq_some.mpr user
      exact apart plot plotOwn step (after.trans follows before) named
    · have same := coherent.plot_unique found called
      rw [same] at after
      exact apart definition own callee after back

structure Ranked (sheet : Sheet) (rank : Definition → Nat) : Prop where
  falls : ∀ caller definition, sheet.Calls caller definition → rank definition < rank caller
  bounded : ∀ definition, rank definition ≤ sheet.symbols.definedNames.length

open Classical in
theorem Coherent.ranked (coherent : sheet.Coherent) (checked : sheet.checkSelfCalls = .ok ()) :
    ∃ rank, sheet.Ranked rank := by
  -- What is called reaches fewer names, for it does not reach its own.
  let names := sheet.symbols.definedNames.toFinset
  let reached (definition : Definition) : Finset String :=
    names.filter fun name => ∃ callee, Reaches sheet.body? definition callee ∧ callee.name = name
  refine ⟨fun definition => (reached definition).card, ?_, ?_⟩
  · rintro caller definition ⟨callee, has, body⟩
    obtain ⟨named, known⟩ := coherent.named body
    have own : sheet.body? definition.name = some definition := by rw [named, body]
    have less : reached definition ⊆ reached caller := by
      intro name member
      obtain ⟨present, target, later, same⟩ := Finset.mem_filter.mp member
      exact Finset.mem_filter.mpr ⟨present, target, .through has body later, same⟩
    have gained : callee.name ∈ reached caller :=
      Finset.mem_filter.mpr ⟨List.mem_toFinset.mpr known, callee, .direct has, rfl⟩
    have lost : callee.name ∉ reached definition := by
      intro member
      obtain ⟨-, target, later, same⟩ := Finset.mem_filter.mp member
      exact coherent.no_return checked own later (same.trans named.symm)
    exact Finset.card_lt_card ((Finset.ssubset_iff_of_subset less).mpr ⟨_, gained, lost⟩)
  · intro definition
    exact (Finset.card_filter_le _ _).trans (List.toFinset_card_le _)

theorem Ranked.wellFounded {rank : Definition → Nat} (ranked : sheet.Ranked rank) :
    WellFounded fun definition caller => sheet.Calls caller definition :=
  Subrelation.wf (fun {_ _} calls => ranked.falls _ _ calls) (measure rank).wf

end Ranks

section Depth

variable {rank : Definition → Nat}

-- The depth that a run of the function has to exceed.
def height (rank : Definition → Nat) (f : Function) : Nat :=
  match f.definition? with
  | some definition => rank definition + 1
  | none => 0

theorem Ranked.height_le (ranked : sheet.Ranked rank) (f : Function) :
    height rank f ≤ sheet.symbols.definedNames.length + 1 := by
  unfold height
  split
  next definition _ =>
    have := ranked.bounded definition
    omega
  · omega

theorem Ranked.height_lt (ranked : sheet.Ranked rank) {f g : Function} {definition : Definition}
    (given : f.definition? = some definition) {callee : Callee} (has : definition.HasCall callee)
    (found : sheet.symbols.function? callee.name = some g) : height rank g < height rank f := by
  have low : height rank f = rank definition + 1 := by
    unfold height
    rw [given]
  cases body : g.definition? with
  | none =>
    have : height rank g = 0 := by
      unfold height
      rw [body]
    omega
  | some next =>
    have called : sheet.body? callee.name = some next := body?_iff.mpr ⟨g, found, body⟩
    have := ranked.falls definition next ⟨callee, has, called⟩
    have : height rank g = rank next + 1 := by
      unfold height
      rw [body]
    omega

theorem formulaValue_not_tooDeep {run : Function → Callee → Scope → Except Error Answer}
    {formula : Formula} (ends : ∀ callee arguments f, formula.Has (.call callee arguments) →
      sheet.symbols.function? callee.name = some f →
        ∀ scope, run f callee scope ≠ .error (.internal .callsTooDeep)) (scope : Scope) :
    formulaValue sheet run scope formula ≠ .error (.internal .callsTooDeep) := by
  intro failed
  cases formulaValue_error failed with
  | own own => contradiction
  | call has fault =>
    cases fault with
    | arity _ failed =>
      obtain ⟨fault, named⟩ := checkArity_error failed
      contradiction
    | run found _ _ failed => exact ends _ _ _ has found _ failed

theorem Ranked.runFunction_not_tooDeep (ranked : sheet.Ranked rank) {depth : Nat} {f : Function}
    (enough : height rank f < depth) (callee : Callee) (scope : Scope) :
    sheet.runFunction depth f callee scope ≠ .error (.internal .callsTooDeep) := by
  induction depth generalizing f callee scope with
  | zero => contradiction
  | succ depth ih =>
    intro failed
    cases runFunction_error failed with
    | missing _ missing => cases argument_error missing
    | body enters failed =>
      refine formulaValue_not_tooDeep ?_ _ failed
      intro callee arguments g has found scope
      -- What is called is lower than what calls it, so the depth that is left is enough.
      have := ranked.height_lt enters.definition? ⟨arguments, has⟩ found
      exact ih (by omega) callee scope

theorem Ranked.runFunction_congr (ranked : sheet.Ranked rank) {depth other : Nat} {f : Function}
    (enough : height rank f < depth) (more : height rank f < other) :
    sheet.runFunction depth f = sheet.runFunction other f := by
  induction depth generalizing other f with
  | zero => contradiction
  | succ depth ih =>
    obtain ⟨other, rfl⟩ : ∃ n, other = n + 1 := ⟨other - 1, by omega⟩
    have bodies {definition : Definition} (given : f.definition? = some definition) :
        (fun scope => formulaValue sheet (sheet.runFunction depth) scope definition.body) =
          fun scope => formulaValue sheet (sheet.runFunction other) scope definition.body := by
      funext scope
      apply formulaValue_congr
      intro callee arguments g has found
      have := ranked.height_lt given ⟨arguments, has⟩ found
      rw [ih (by omega : height rank g < depth) (by omega : height rank g < other)]
    funext callee scope
    cases f with
    | user definition =>
      have same := congrFun (bodies rfl) scope
      simp only [runFunction, same]
    | plot definition =>
      have same : sample sheet (sheet.runFunction depth) definition =
          sample sheet (sheet.runFunction other) definition := by
        funext x
        have value := congrFun (bodies rfl)
          (.bind [definition.parameters.head?.getD "x"] [Float.ofInt x])
        simp only [sample, value]
      simp only [runFunction, samples, same]
    | sequence | builtin => rfl

theorem Ranked.run_eq (ranked : sheet.Ranked rank) {depth : Nat}
    (enough : sheet.symbols.definedNames.length + 1 < depth) :
    sheet.runFunction depth = sheet.run := by
  funext f
  have low := ranked.height_le f
  apply ranked.runFunction_congr
  · omega
  · unfold callDepth roomForCalls
    omega

theorem Ranked.run_not_tooDeep (ranked : sheet.Ranked rank) (f : Function) (callee : Callee)
    (scope : Scope) : sheet.run f callee scope ≠ .error (.internal .callsTooDeep) := by
  have low := ranked.height_le f
  apply ranked.runFunction_not_tooDeep
  unfold callDepth roomForCalls
  omega

theorem Ranked.output_not_tooDeep (ranked : sheet.Ranked rank) (plotNumber : Nat)
    (statement : Statement) :
    sheet.output plotNumber statement ≠ .error (.internal .callsTooDeep) := by
  have ends (formula : Formula) (scope : Scope) :
      sheet.evaluate scope formula ≠ .error (.internal .callsTooDeep) :=
    formulaValue_not_tooDeep (fun callee _ f _ _ => ranked.run_not_tooDeep f callee) scope
  intro failed
  cases statement with
  | formula formula => exact ends _ _ (Outcome.map_eq_error.mp failed)
  | plot definition =>
    obtain ⟨scope, -, failed⟩ := samples_error (Outcome.map_eq_error.mp failed)
    exact ends _ _ failed

end Depth

/-- The check fails exactly on sheets where a definition reaches a call of its own name through the
bodies of user functions. On a sheet that was read without an error no chain of calls goes on for
ever, through whatever plots; so every run ends, at a depth that the definitions bound. -/
theorem checkSelfCalls_exact :
    (∀ sheet : Sheet, sheet.Reachable →
      ((∃ e, sheet.checkSelfCalls = .error e) ↔
        ∃ f ∈ sheet.symbols.definitions, ∃ definition, f.definition? = some definition ∧
          ∃ callee, Reaches sheet.userBody? definition callee ∧
            callee.name = definition.name)) ∧
    ∀ (source : String) (limits : Limits) (sheet : Sheet) (statements : List Statement),
      (ofSource source limits).parse = (sheet, .ok statements) →
        WellFounded (fun definition caller => sheet.Calls caller definition) ∧
        (∀ depth, sheet.symbols.definedNames.length + 1 < depth →
          sheet.runFunction depth = sheet.run) ∧
        (∀ f callee scope, sheet.run f callee scope ≠ .error (.internal .callsTooDeep)) ∧
        ∀ statement ∈ statements, ∀ plotNumber,
          sheet.output plotNumber statement ≠ .error (.internal .callsTooDeep) := by
  constructor
  · intro sheet reachable
    have coherent := reachable.coherent
    have fails : (∃ e, sheet.checkSelfCalls = .error e) ↔ ¬sheet.checkSelfCalls = .ok () := by
      cases sheet.checkSelfCalls <;> simp
    rw [fails, coherent.checkSelfCalls_eq_ok]
    constructor
    · intro returns
      push Not at returns
      obtain ⟨definition, own, callee, reached, back⟩ := returns
      obtain ⟨f, member, given⟩ := coherent.mem_definitions.mpr own
      exact ⟨f, member, definition, given, callee, reached, back⟩
    · rintro ⟨f, member, definition, given, callee, reached, back⟩ apart
      exact apart definition (coherent.mem_definitions.mp ⟨f, member, given⟩) callee reached back
  · intro source limits sheet statements parsed
    obtain ⟨entered, raw, passed⟩ := parse_eq_ok parsed
    obtain ⟨rank, ranked⟩ := (reachable_of_parse parsed).coherent.ranked passed.selfCalls
    refine ⟨ranked.wellFounded, ?_, ranked.run_not_tooDeep, ?_⟩
    · intro depth enough
      exact ranked.run_eq enough
    · intro statement _ plotNumber
      exact ranked.output_not_tooDeep plotNumber statement

-- A cycle through the plot, and a plot that is called and was replaced.
theorem checkSelfCalls_exact_plots :
    (∃ sheet : Sheet, ∃ f ∈ sheet.symbols.definitions, ∃ definition,
      f.definition? = some definition ∧
        ∃ callee, Reaches sheet.userBody? definition callee ∧ callee.name = definition.name) ∧
    ∃ sheet statements,
      (ofSource "f(x)=x*(x)\ny=f(x)\ny=f(f(x))\ny(pi)-f(pi)" {}).parse = (sheet, .ok statements) ∧
        WellFounded fun definition caller => sheet.Calls caller definition := by
  constructor
  · let sheet := (ofSource "g(x)=y(x)\ny=g(x)" {}).parse.1
    have reachable : sheet.Reachable := (reachable_ofSource _ _).steps (parse_steps _)
    have fails : sheet.checkSelfCalls.toOption.isNone := by decide +kernel
    refine ⟨sheet, (checkSelfCalls_exact.1 sheet reachable).mp ?_⟩
    cases checked : sheet.checkSelfCalls with
    | error e => exact ⟨e, rfl⟩
    | ok _ =>
      rw [checked] at fails
      contradiction
  · obtain ⟨sheet, statements, parsed⟩ := eq_ok_of_isSome
      (by decide +kernel : (ofSource "f(x)=x*(x)\ny=f(x)\ny=f(f(x))\ny(pi)-f(pi)"
        {}).parse.2.toOption.isSome)
    exact ⟨sheet, statements, parsed, (checkSelfCalls_exact.2 _ _ _ _ parsed).1⟩

end FormulaSheet.Sheet
