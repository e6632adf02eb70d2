import FormulaSheet.Proofs.Evaluation
import FormulaSheet.Proofs.Finite.Numbers
import FormulaSheet.Proofs.Finite.Reading

set_option autoImplicit false

namespace FormulaSheet

def Scope.Finite (scope : Scope) : Prop :=
  ∀ binding ∈ scope.bindings, binding.2.isFinite

theorem Scope.finite_empty : Scope.empty.Finite := by
  simp [Scope.Finite, Scope.empty]

theorem Scope.finite_bind {names : List String} {values : List Float}
    (finite : ∀ x ∈ values, x.isFinite) : (Scope.bind names values).Finite := by
  rintro ⟨name, x⟩ member
  exact finite x (List.of_mem_zip (List.mem_reverse.mp member)).2

theorem Scope.Finite.find? {scope : Scope} (finite : scope.Finite) {name : String} {x : Float}
    (found : scope.find? name = some x) : x.isFinite := by
  obtain ⟨before, after, same, -⟩ := List.lookup_eq_some_iff.mp found
  exact finite (name, x) (by simp [same])

def Points.Finite (points : Points) : Prop :=
  ∀ point ∈ points, ∀ y, point.2 = some y → y.isFinite

def Answer.Finite : Answer → Prop
  | .number value => value.isFinite
  | .points drawn => drawn.Finite

def Item.Finite : Item → Prop
  | .value x => x.isFinite
  | .operator _ => True

theorem Awaiting.signed_finite {awaiting : Awaiting} {x : Float} (finite : x.isFinite) :
    (awaiting.signed x).isFinite := by
  unfold signed
  split
  · split
    · exact Binary64.isFinite_neg finite
    · exact finite
  · exact finite

section Results

variable {limits : Limits} {source : String}

theorem isFinite_of_checked {ε : Type} {fault : ε} {x value : Float}
    (h : (if x.isFinite then .ok x else .error fault : Except ε Float) = .ok value) :
    value.isFinite := by
  split at h
  next finite =>
    cases h
    exact finite
  · contradiction

theorem Operation.evaluate_finite {operation : Operation} {left right value : Float}
    (h : operation.evaluate limits left right = .ok value) : value.isFinite := by
  simp only [evaluate] at h
  iterate 4
    split at h
    · contradiction
  exact isFinite_of_checked h

theorem Item.sweep_finite {operation : Operation} {done items swept : List Item}
    (h : sweep limits source operation done items = .ok swept)
    (passed : ∀ item ∈ done, item.Finite) (ahead : ∀ item ∈ items, item.Finite) :
    ∀ item ∈ swept, item.Finite := by
  fun_induction sweep limits source operation done items with
  | case1 =>
    cases h
    simpa using passed
  | case2 done v rest ih =>
    obtain ⟨first, ahead⟩ := List.forall_mem_cons.mp ahead
    exact ih h (List.forall_mem_cons.mpr ⟨first, passed⟩) ahead
  | case3 o left done right rest here ih =>
    obtain ⟨value, applied, h⟩ := Outcome.bind_eq_ok.mp h
    have finite := Operation.evaluate_finite (Outcome.mapError_eq_ok.mp applied)
    refine ih value h (List.forall_mem_cons.mpr ⟨finite, (List.forall_mem_cons.mp passed).2⟩) ?_
    exact fun item member => ahead item (by simp [member])
  | case4 | case5 => contradiction
  | case6 done o rest other ih =>
    obtain ⟨first, ahead⟩ := List.forall_mem_cons.mp ahead
    exact ih h (List.forall_mem_cons.mpr ⟨first, passed⟩) ahead

theorem Item.sweeps_finite {levels : List Operation} {items swept : List Item}
    (h : levels.foldlM (fun items operation => sweep limits source operation [] items) items =
      .ok swept)
    (finite : ∀ item ∈ items, item.Finite) : ∀ item ∈ swept, item.Finite := by
  induction levels generalizing items with
  | nil =>
    cases h
    exact finite
  | cons operation looser ih =>
    obtain ⟨once, first, h⟩ := Outcome.bind_eq_ok.mp h
    exact ih h (sweep_finite first (by simp) finite)

theorem Item.reduce_finite {items : List Item} {x : Float}
    (h : reduce limits source items = .ok x) (finite : ∀ item ∈ items, item.Finite) :
    x.isFinite := by
  obtain ⟨swept, reduced, h⟩ := Outcome.bind_eq_ok.mp h
  have kept := sweeps_finite reduced finite
  split at h
  next v =>
    cases h
    exact kept _ List.mem_cons_self
  all_goals contradiction

theorem Progression.answer_finite {p : Progression} {maxExponent value x : Float} {kind : CallKind}
    (h : p.answer maxExponent kind value = .ok x) : x.isFinite := by
  unfold answer at h
  cases kind with
  | plain =>
    dsimp only at h
    split at h
    · cases h
    · exact isFinite_of_checked h
  | query asked =>
    cases asked <;> dsimp only at h
    · split at h
      · cases h
      · exact isFinite_of_checked h
    · split at h
      · cases h
      · split at h
        · cases h
        · exact isFinite_of_checked h
    · split at h
      · cases h
      · exact isFinite_of_checked h

end Results

namespace Sheet

structure Finite (sheet : Sheet) : Prop where
  constants : ∀ name x, sheet.symbols.constant? name = some x → x.isFinite
  bodies : ∀ name f definition, sheet.symbols.function? name = some f →
    f.definition? = some definition → definition.body.Finite
  range : ∀ x ∈ sheet.limits.plotRange.toList, (Float.ofInt x).isFinite

variable {sheet : Sheet} {run : Function → Callee → Scope → Except Error Answer} {scope : Scope}

theorem Finite.value? (finite : sheet.Finite) (bound : scope.Finite) {name : String} {x : Float}
    (found : sheet.value? scope name = some x) : x.isFinite := by
  unfold Sheet.value? at found
  cases known : scope.find? name with
  | some own =>
    rw [known] at found
    cases found
    exact bound.find? known
  | none =>
    rw [known] at found
    exact finite.constants name x found

theorem items_finite {formula : Formula} {awaiting : Awaiting} {found : List Item}
    (parts : ∀ part ∈ formula, ∀ x, partValue sheet run scope part = .ok x → x.isFinite)
    (h : items sheet run scope awaiting formula = .ok found) : ∀ item ∈ found, item.Finite := by
  replace h := listed_of_items h
  induction h with
  | missing | ended => exact List.forall_mem_nil _
  | value _ known _ ih =>
    obtain ⟨own, later⟩ := List.forall_mem_cons.mp parts
    exact List.forall_mem_cons.mpr ⟨Awaiting.signed_finite (own _ known), ih later⟩
  | sign _ _ ih => exact ih (List.forall_mem_cons.mp parts).2
  | operator _ ih =>
    exact List.forall_mem_cons.mpr ⟨trivial, ih (List.forall_mem_cons.mp parts).2⟩

theorem conclude_finite {formula : Formula} {x : Float}
    (parts : ∀ part ∈ formula, ∀ x, partValue sheet run scope part = .ok x → x.isFinite)
    (h : formulaValue sheet run scope formula = .ok x) : x.isFinite := by
  unfold formulaValue conclude at h
  split at h
  · contradiction
  · obtain ⟨found, listed, reduced⟩ := Outcome.bind_eq_ok.mp h
    exact Item.reduce_finite reduced (items_finite parts listed)

def Keeping (sheet : Sheet) (run : Function → Callee → Scope → Except Error Answer) : Prop :=
  ∀ name f callee scope answer, sheet.symbols.function? name = some f → scope.Finite →
    run f callee scope = .ok answer → answer.Finite

theorem argumentValues_finite {arguments : List Formula} {values : List Float}
    (each : ∀ argument ∈ arguments, ∀ x, formulaValue sheet run scope argument = .ok x → x.isFinite)
    (h : argumentValues sheet run scope arguments = .ok values) : ∀ x ∈ values, x.isFinite := by
  rw [argumentValues_eq_mapM] at h
  intro x member
  obtain ⟨argument, given, found⟩ := Outcome.mapM_of_mem h member
  exact each argument given x found

theorem Finite.formulaValue (finite : sheet.Finite) (keeping : sheet.Keeping run)
    (bound : scope.Finite) {formula : Formula} (numbers : formula.Finite) {x : Float}
    (h : formulaValue sheet run scope formula = .ok x) : x.isFinite := by
  induction formula using Formula.nesting_induction generalizing x with
  | step formula inBracket inArgument =>
    refine conclude_finite (fun part member x valued => ?_) h
    cases part with
    | literal site value =>
      cases valued
      exact numbers site x (.here member)
    | name site =>
      simp only [partValue] at valued
      split at valued
      next known =>
        cases valued
        exact finite.value? bound known
      · contradiction
    | operator => contradiction
    | bracket opening inside =>
      exact inBracket opening inside member (fun site x has => numbers site x (has.bracket member))
        valued
    | call callee arguments =>
      simp only [partValue] at valued
      split at valued
      next f found =>
        obtain ⟨_, -, valued⟩ := Outcome.bind_eq_ok.mp valued
        obtain ⟨values, given, valued⟩ := Outcome.bind_eq_ok.mp valued
        obtain ⟨answer, answered, valued⟩ := Outcome.bind_eq_ok.mp valued
        have each := argumentValues_finite (fun argument listed x => inArgument callee arguments
          member argument listed fun site x has => numbers site x (has.argument member listed)) given
        have kept := keeping callee.name f callee _ answer found (Scope.finite_bind each) answered
        cases answer with
        | number value =>
          cases valued
          exact kept
        | points => contradiction
      · contradiction

theorem Finite.samples (finite : sheet.Finite) (keeping : sheet.Keeping run)
    {definition : Definition} (numbers : definition.body.Finite) {points : Points}
    (h : samples sheet run definition = .ok points) : points.Finite := by
  intro point member y drawn
  obtain ⟨x, within, sampled⟩ := Outcome.mapM_of_mem h member
  have bound : (Scope.bind [definition.parameters.head?.getD "x"] [Float.ofInt x]).Finite :=
    Scope.finite_bind (by simpa using finite.range x within)
  simp only [sample] at sampled
  split at sampled
  next found =>
    cases sampled
    cases drawn
    exact finite.formulaValue keeping bound numbers found
  · split at sampled
    · cases sampled
      contradiction
    · contradiction

theorem askSequence_finite {site : Site} {kind : CallKind} {value x : Float}
    (h : sheet.askSequence site kind value = .ok x) : x.isFinite := by
  unfold askSequence at h
  split at h
  · contradiction
  · exact Progression.answer_finite (Outcome.mapError_eq_ok.mp h)

theorem runBuiltin_finite {b : Builtin} {site : Site} {x : Float}
    (h : sheet.runBuiltin b site scope = .ok x) : x.isFinite := by
  obtain ⟨arguments, -, h⟩ := Outcome.bind_eq_ok.mp h
  split at h
  · exact isFinite_of_checked h
  all_goals contradiction

theorem Finite.keeping (finite : sheet.Finite) (depth : Nat) :
    sheet.Keeping (sheet.runFunction depth) := by
  induction depth with
  | zero =>
    intro _ _ _ _ _ _ _ h
    contradiction
  | succ depth ih =>
    intro name f callee scope answer found bound h
    cases f with
    | user definition =>
      obtain ⟨x, valued, rfl⟩ := Outcome.map_eq_ok.mp h
      exact finite.formulaValue ih bound (finite.bodies name _ definition found rfl) valued
    | plot definition =>
      obtain ⟨points, drawn, rfl⟩ := Outcome.map_eq_ok.mp h
      exact finite.samples ih (finite.bodies name _ definition found rfl) drawn
    | sequence =>
      obtain ⟨value, -, h⟩ := Outcome.bind_eq_ok.mp h
      obtain ⟨x, asked, h⟩ := Outcome.bind_eq_ok.mp h
      cases h
      exact askSequence_finite asked
    | builtin b =>
      obtain ⟨x, ran, rfl⟩ := Outcome.map_eq_ok.mp h
      exact runBuiltin_finite ran

end Sheet

end FormulaSheet
