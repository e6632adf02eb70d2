import FormulaSheet.Proofs.Finite.Evaluation
import FormulaSheet.Proofs.Loosening
import FormulaSheet.Proofs.Running

set_option autoImplicit false

namespace FormulaSheet

-- Plots are sampled at whole numbers of 64 bits.
def Limits.Sampled (limits : Limits) : Prop :=
  -2 ^ 63 ≤ limits.plotRange.first ∧ limits.plotRange.last < 2 ^ 63

theorem Limits.Sampled.isFinite {limits : Limits} (sampled : limits.Sampled) :
    ∀ x ∈ limits.plotRange.toList, (Float.ofInt x).isFinite := by
  intro x member
  obtain ⟨above, below⟩ := (PlotRange.mem_toList _ x).mp member
  exact Binary64.isFinite_ofInt (Int.le_trans sampled.1 above) (Int.lt_of_le_of_lt below sampled.2)

def Output.Finite : Output → Prop
  | .number value => value.isFinite
  | .plot drawn => drawn.points.Finite

theorem SymbolTable.constant?_define {table : SymbolTable} {name other : String} {f : Function}
    {x : Float} (found : (table.define name f).constant? other = some x) :
    table.constant? other = some x := by
  unfold constant? at found
  rw [find?_define] at found
  by_cases same : other = name
  · rw [if_pos same] at found
    contradiction
  · rw [if_neg same] at found
    exact found

namespace Sheet

section Sheets

variable {sheet next : Sheet}

def FiniteConstants (sheet : Sheet) : Prop :=
  ∀ name x, sheet.symbols.constant? name = some x → x.isFinite

theorem FiniteConstants.step (finite : sheet.FiniteConstants) (step : Step sheet next) :
    next.FiniteConstants := by
  cases step with
  | define entered =>
    intro name x found
    cases define_iff.mp entered with
    | function | plot => exact finite name x (SymbolTable.constant?_define found)
    | sequence =>
      exact finite name x (SymbolTable.constant?_define (SymbolTable.constant?_define found))
  | check statements =>
    rw [FiniteConstants, check_symbols]
    exact finite
  | limits limits => exact finite

theorem finiteConstants_ofSource (source : String) (limits : Limits) :
    (ofSource source limits).FiniteConstants := by
  intro name x found
  obtain ⟨constant, member, rfl⟩ := SymbolTable.constant?_withBuiltins found
  exact Binary64.isFinite_constants constant member

theorem Reachable.finiteConstants (reachable : sheet.Reachable) : sheet.FiniteConstants :=
  reachable.invariant finiteConstants_ofSource fun _ _ finite step => finite.step step

theorem Reachable.finite (reachable : sheet.Reachable) (sampled : sheet.limits.Sampled) :
    sheet.Finite := by
  refine ⟨reachable.finiteConstants, fun name f definition found given => ?_, sampled.isFinite⟩
  cases reachable.allWritten name f found with
  | user read | plot read =>
    cases given
    exact Formula.finite_of_captured read _ List.mem_cons_self
  | sequence | builtin => contradiction

theorem rawStatements_kept (sheet : Sheet) (tokens : List Token) :
    (sheet.rawStatements tokens).1.limits = sheet.limits :=
  congrArg (·.1.limits) (rawStatements_limits sheet.limits tokens)

theorem checkSequence_kept (h : sheet.checkSequence = .ok next) : next.limits = sheet.limits := by
  rcases checkSequence_eq_ok h with ⟨-, rfl⟩ | ⟨s, progression, -, rfl⟩
  · rfl
  · rfl

variable {statements : List Statement}

theorem Reachable.finite_of_parse (reachable : sheet.Reachable) (sampled : sheet.limits.Sampled)
    (parsed : sheet.parse = (next, .ok statements)) :
    next.Finite ∧ ∀ statement ∈ statements, statement.body.Finite := by
  obtain ⟨entered, raw, passed⟩ := parse_eq_ok parsed
  obtain ⟨tokens, read, defined⟩ := passed.defined
  constructor
  · have steps := sheet.parse_steps
    have kept := sheet.rawStatements_kept tokens
    rw [parsed] at steps
    rw [defined, ← checkSequence_kept passed.sequence] at kept
    exact (reachable.steps steps).finite (kept ▸ sampled)
  · have numbers : ∀ token ∈ tokens, token.shape.Finite := by
      unfold Token.Reading.toExcept at read
      split at read
      · contradiction
      · cases read
        exact Token.readFrom_finite _ _ _ _
    have lines : ∀ statement ∈ raw, statement.body.Finite := by
      intro statement member
      cases rawStatements_raw defined statement member with
      | formula within built =>
        exact (Formula.building_finite sheet.source).1 _ _ _ built Formula.finite_nil
          fun token present => numbers token (within present)
      | plot captured => exact Formula.finite_of_captured captured _ List.mem_cons_self
    intro statement member
    cases finishStatements_mem passed.finished member with
    | formula present _ done =>
      rw [Formula.finish_eq_ok done]
      exact (lines _ present).foldSign
    | plot present => exact lines _ present

end Sheets

section Scopes

/-- The scopes that are bound while a formula is evaluated, with calls nested at most so deep: by
its calls, for the bodies that these run, and inside those. -/
inductive Binds (sheet : Sheet) : Nat → Scope → Formula → Scope → Prop
  | call {depth : Nat} {scope : Scope} {formula : Formula} {callee : Callee}
      {arguments : List Formula} {f : Function} {values : List Float} :
      Asks sheet (sheet.runFunction depth) scope formula callee arguments →
      sheet.symbols.function? callee.name = some f →
      argumentValues sheet (sheet.runFunction depth) scope arguments = .ok values →
        Binds sheet depth scope formula (.bind f.parameters values)
  | body {depth : Nat} {scope inner : Scope} {formula : Formula} {definition : Definition} :
      sheet.Invokes depth scope formula definition inner →
        Binds sheet (depth + 1) scope formula inner
  | inside {depth : Nat} {scope inner bound : Scope} {formula : Formula}
      {definition : Definition} :
      sheet.Invokes depth scope formula definition inner →
      Binds sheet depth inner definition.body bound → Binds sheet (depth + 1) scope formula bound

/-- The formulas that running a sheet sets out to evaluate, on what sheet and in what scope: the
terms of its sequence, its lines, and the body of a plot at each of its samples. -/
inductive Starts (sheet : Sheet) : Sheet → Scope → Formula → Prop
  | term {entered : Sheet} {tokens : List Token} {raw : List Statement} {s : Sequence}
      {term : Capture} {formula : Formula} :
      (Token.readAll .statements sheet.source).toExcept = .ok tokens →
      sheet.rawStatements tokens = (entered, .ok raw) →
      entered.sequence? = some s → term ∈ s.terms →
      Formula.captured sheet.source .arguments term = .ok [formula] →
        Starts sheet { entered with sequence? := none } .empty formula
  | line {next : Sheet} {statements : List Statement} {formula : Formula} :
      sheet.parse = (next, .ok statements) → .formula formula ∈ statements →
        Starts sheet next .empty formula
  | sample {next : Sheet} {statements : List Statement} {definition : Definition}
      {inner : Scope} :
      sheet.parse = (next, .ok statements) → .plot definition ∈ statements →
      Enters next next.run (.plot definition) .empty definition inner →
        Starts sheet next inner definition.body

variable {sheet : Sheet} {scope inner : Scope} {formula : Formula} {definition : Definition}
  {depth : Nat}

theorem Finite.enters (finite : sheet.Finite)
    {run : Function → Callee → Scope → Except Error Answer} {f : Function} (bound : scope.Finite)
    (enters : Enters sheet run f scope definition inner) : inner.Finite := by
  cases enters with
  | user => exact bound
  | @plot _ _ earlier later x _ range _ =>
    have sampled := finite.range x (by simp [range])
    exact Scope.finite_bind (by simpa using sampled)

theorem Finite.arguments (finite : sheet.Finite) (bound : scope.Finite) (numbers : formula.Finite)
    {callee : Callee} {arguments : List Formula} {values : List Float}
    (asks : Asks sheet (sheet.runFunction depth) scope formula callee arguments)
    (given : argumentValues sheet (sheet.runFunction depth) scope arguments = .ok values) :
    ∀ x ∈ values, x.isFinite := by
  refine argumentValues_finite (fun argument listed x valued => ?_) given
  exact finite.formulaValue (finite.keeping depth) bound (numbers.argument asks.has listed) valued

theorem Finite.invokes (finite : sheet.Finite) (bound : scope.Finite) (numbers : formula.Finite)
    (invokes : sheet.Invokes depth scope formula definition inner) :
    inner.Finite ∧ definition.body.Finite := by
  obtain ⟨callee, arguments, f, values, asks, found, -, given, enters⟩ := invokes
  have values := finite.arguments bound numbers asks given
  exact ⟨finite.enters (Scope.finite_bind values) enters,
    finite.bodies callee.name f definition found enters.definition?⟩

theorem Finite.binds (finite : sheet.Finite) {bound : Scope}
    (binds : Binds sheet depth scope formula bound) (start : scope.Finite)
    (numbers : formula.Finite) : bound.Finite := by
  induction binds with
  | call asks found given => exact Scope.finite_bind (finite.arguments start numbers asks given)
  | body invokes => exact (finite.invokes start numbers invokes).1
  | inside invokes _ ih =>
    obtain ⟨entered, body⟩ := finite.invokes start numbers invokes
    exact ih entered body

theorem Reachable.finite_of_starts (reachable : sheet.Reachable) (sampled : sheet.limits.Sampled)
    {running : Sheet} (starts : Starts sheet running scope formula) :
    running.Finite ∧ scope.Finite ∧ formula.Finite := by
  cases starts with
  | @term entered tokens raw s term _ read defined present listed captured =>
    have steps := sheet.rawStatements_steps tokens
    have kept := sheet.rawStatements_kept tokens
    rw [defined] at steps kept
    have finite : entered.Finite := (reachable.steps steps).finite (kept ▸ sampled)
    exact ⟨⟨finite.constants, finite.bodies, finite.range⟩, Scope.finite_empty,
      Formula.finite_of_captured captured _ List.mem_cons_self⟩
  | line parsed member =>
    obtain ⟨finite, lines⟩ := reachable.finite_of_parse sampled parsed
    exact ⟨finite, Scope.finite_empty, lines _ member⟩
  | sample parsed member enters =>
    obtain ⟨finite, lines⟩ := reachable.finite_of_parse sampled parsed
    exact ⟨finite, finite.enters Scope.finite_empty enters, lines _ member⟩

theorem Finite.output (finite : sheet.Finite) {statement : Statement}
    (numbers : statement.body.Finite) {plotNumber : Nat} {output : Output}
    (h : sheet.output plotNumber statement = .ok output) : output.Finite := by
  cases statement with
  | formula formula =>
    obtain ⟨x, valued, rfl⟩ := Outcome.map_eq_ok.mp h
    exact finite.formulaValue (finite.keeping _) Scope.finite_empty numbers valued
  | plot definition =>
    obtain ⟨points, drawn, rfl⟩ := Outcome.map_eq_ok.mp h
    exact finite.samples (finite.keeping _) numbers drawn

end Scopes

def asked? : Statement → Option String
  | .formula [.call callee [[.literal _ _]]] => some callee.name
  | _ => none

/-- What a run hands back is finite, apart from the gaps of its plots. So is every number that a
name is bound to on the way, also in a run that fails. -/
theorem runAll_finite (sheet : Sheet) (reachable : sheet.Reachable)
    (sampled : sheet.limits.Sampled) :
    (∀ outputs, sheet.runAll.2 = .ok outputs → ∀ output ∈ outputs, output.Finite) ∧
    ∀ running scope formula, Starts sheet running scope formula →
      scope.Finite ∧ ∀ bound, Binds running running.callDepth scope formula bound →
        bound.Finite := by
  constructor
  · intro outputs ran output member
    obtain ⟨next, statements, parsed, put⟩ := runAll_eq_ok.mp ran
    obtain ⟨finite, lines⟩ := reachable.finite_of_parse sampled parsed
    obtain ⟨statement, present, number, found⟩ := outputs_mem put member
    exact finite.output (lines statement present) found
  · intro running scope formula starts
    obtain ⟨finite, start, numbers⟩ := reachable.finite_of_starts sampled starts
    exact ⟨start, fun bound binds => finite.binds binds start numbers⟩

theorem runAll_finite_reciprocals :
    (∃ outputs, (ofSource "f(x)=1/x\ny=f(x)\nf(4)" {}).runAll.2 = .ok outputs ∧
      ∀ output ∈ outputs, output.Finite) ∧
    ∃ running scope formula, Starts (ofSource "f(x)=1/x\ny=f(x)\nf(4)" {}) running scope formula ∧
      ∃ bound, Binds running running.callDepth scope formula bound ∧ bound.Finite := by
  obtain ⟨handed, scopes⟩ := runAll_finite (ofSource "f(x)=1/x\ny=f(x)\nf(4)" {})
    (reachable_ofSource _ _) ⟨by decide, by decide⟩
  have succeeds : (ofSource "f(x)=1/x\ny=f(x)\nf(4)" {}).runAll.2.toOption.isSome := by
    decide +kernel
  obtain ⟨_, outputs, same⟩ := eq_ok_of_isSome succeeds
  have ran : (ofSource "f(x)=1/x\ny=f(x)\nf(4)" {}).runAll.2 = .ok outputs :=
    congrArg Prod.snd same
  refine ⟨⟨outputs, ran, handed outputs ran⟩, ?_⟩
  obtain ⟨running, statements, parsed, -⟩ := runAll_eq_ok.mp ran
  have calls : (ofSource "f(x)=1/x\ny=f(x)\nf(4)" {}).parse.2.toOption.any
        (·.any (asked? · = some "f")) ∧
      ((ofSource "f(x)=1/x\ny=f(x)\nf(4)" {}).parse.1.symbols.function? "f").isSome := by
    decide +kernel
  rw [parsed] at calls
  obtain ⟨statement, member, called⟩ := List.any_eq_true.mp calls.1
  obtain ⟨f, found⟩ := Option.isSome_iff_exists.mp calls.2
  have called := of_decide_eq_true called
  unfold asked? at called
  split at called
  next callee site x _ =>
    rw [← Option.some.inj called] at found
    have starts := Starts.line parsed member
    have binds : Binds running running.callDepth .empty [.call callee [[.literal site x]]]
        (.bind f.parameters [x]) :=
      .call (.own (.here rfl)) found rfl
    exact ⟨running, _, _, starts, _, binds, (scopes _ _ _ starts).2 _ binds⟩
  · contradiction

end Sheet

end FormulaSheet
