import FormulaSheet.Proofs.Grammar.Drafting
import FormulaSheet.Proofs.Session.Sequence
import FormulaSheet.Proofs.Validation

set_option autoImplicit false

namespace FormulaSheet

namespace Formula

section Calls

variable {done after : Formula} {part : Part} {callee : Callee}

theorem mem_calls_addValue (h : callee ∈ calls (addValue done part)) :
    callee ∈ part.calls ∨ callee ∈ calls done := by
  obtain ⟨other, member, called⟩ := mem_calls.mp h
  rcases mem_addValue member with rfl | present | ⟨o, rfl⟩
  · exact .inl called
  · exact .inr (mem_calls.mpr ⟨other, present, called⟩)
  · contradiction

theorem mem_calls_addOperator {o : Operator} (added : addOperator done o = .ok after)
    (h : callee ∈ calls after) : callee ∈ calls done := by
  obtain ⟨other, member, called⟩ := mem_calls.mp h
  rcases mem_addOperator added member with present | ⟨o, rfl⟩
  · exact mem_calls.mpr ⟨other, present, called⟩
  · contradiction

theorem mem_calls_reverse : callee ∈ calls done.reverse ↔ callee ∈ calls done := by
  simp only [mem_calls, List.mem_reverse]

theorem mem_calls_foldSign (h : callee ∈ calls done.foldSign) : callee ∈ calls done := by
  obtain ⟨arguments, has⟩ := mem_calls_iff_has.mp h
  exact mem_calls_iff_has.mpr ⟨arguments, has_call_foldSign has⟩

end Calls

variable {source : String} {P : Callee → Prop}

theorem Finishes.calls {formula : Formula} {others formulas : List Formula}
    (finishes : Finishes source formula others formulas) (own : ∀ callee ∈ calls formula, P callee)
    (later : ∀ other ∈ others, ∀ callee ∈ Formula.calls other, P callee) :
    ∀ formula ∈ formulas, ∀ callee ∈ Formula.calls formula, P callee := by
  rcases finishes with ⟨-, rfl⟩ | ⟨-, finished, done, rfl⟩
  · exact later
  · rw [finish_eq_ok done]
    exact List.forall_mem_cons.mpr ⟨fun callee called => own callee (mem_calls_foldSign called), later⟩

theorem building_calls (source : String) (plain : ∀ site name, P ⟨site, name, .plain⟩)
    (queried : ∀ site query, P ⟨site, "s", .query query⟩) :
    (∀ done tokens formula, chain source done tokens = .ok formula →
      (∀ callee ∈ calls done, P callee) → ∀ callee ∈ calls formula, P callee) ∧
    ∀ tokens formulas, lines source tokens = .ok formulas →
      ∀ formula ∈ formulas, ∀ callee ∈ calls formula, P callee := by
  have extend {done : Formula} {part : Part} (own : ∀ callee ∈ part.calls, P callee)
      (before : ∀ callee ∈ calls done, P callee) : ∀ callee ∈ calls (addValue done part), P callee :=
    fun callee called => (mem_calls_addValue called).elim (own callee) (before callee)
  have called {callee : Callee} {values : List Formula} (own : P callee)
      (given : ∀ value ∈ values, ∀ inner ∈ calls value, P inner) :
      ∀ inner ∈ (Part.call callee values).calls, P inner := by
    refine List.forall_mem_cons.mpr ⟨own, fun inner found => ?_⟩
    obtain ⟨value, member, found⟩ := mem_argumentCalls.mp found
    exact given value member inner found
  have ended {done : Formula} (before : ∀ callee ∈ calls done, P callee) :
      ∀ callee ∈ calls done.reverse, P callee :=
    fun callee found => before callee (mem_calls_reverse.mp found)
  refine build_induction
    (fun done _ formula => (∀ callee ∈ calls done, P callee) → ∀ callee ∈ calls formula, P callee)
    (fun _ formulas => ∀ formula ∈ formulas, ∀ callee ∈ calls formula, P callee)
    ?nil ?ended ?number ?name ?operator ?group ?call ?query ?last ?line
  case nil => exact fun done before => ended before
  case ended => exact fun done token rest _ before => ended before
  case number =>
    intro done token rest value formula _ ih before
    exact ih (extend (by simp [Part.calls]) before)
  case name =>
    intro done token rest formula _ ih before
    exact ih (extend (by simp [Part.calls]) before)
  case operator =>
    intro done token rest operation after formula _ added ih before
    exact ih fun callee found => before callee (mem_calls_addOperator added found)
  case group =>
    intro done token rest inside after group formula _ _ inner outer before
    exact outer (extend (inner group List.mem_cons_self) before)
  case call =>
    intro done token rest callee arguments values formula _ _ inner ih before
    exact ih (extend (called (plain token.site callee.text) inner) before)
  case query =>
    intro done token rest query arguments values formula _ _ inner ih before
    exact ih (extend (called (queried token.site query) inner) before)
  case last =>
    intro tokens formula formulas ih _ finishes
    exact finishes.calls (ih (by simp [calls])) (by simp)
  case line =>
    intro tokens formula rest others formulas ih _ later finishes
    exact finishes.calls (ih (by simp [calls])) later

end Formula

def Callee.Lowered (callee : Callee) : Prop :=
  callee.kind = .plain ∨ callee.name = "s"

namespace Formula

def Lowered (formula : Formula) : Prop :=
  ∀ callee ∈ calls formula, callee.Lowered

theorem building_lowered (source : String) :
    (∀ done tokens formula, chain source done tokens = .ok formula → Lowered done →
      Lowered formula) ∧
    ∀ tokens formulas, lines source tokens = .ok formulas → ∀ formula ∈ formulas, Lowered formula :=
  building_calls source (fun _ _ => .inl rfl) (fun _ _ => .inr rfl)

theorem lowered_of_captured {source : String} {grammar : Token.Grammar} {capture : Capture}
    {formulas : List Formula} (h : captured source grammar capture = .ok formulas) :
    ∀ formula ∈ formulas, Lowered formula :=
  (building_lowered source).2 _ _ (captured_ok.mp h).2

end Formula

namespace Sheet

variable {sheet entered next : Sheet} {raw statements : List Statement}

theorem Raw.lowered {source : String} {tokens : List Token} {statement : Statement}
    (h : Raw source tokens statement) : statement.body.Lowered := by
  cases h with
  | formula _ built =>
    have empty : Formula.Lowered [] := by simp [Formula.Lowered, Formula.calls]
    exact (Formula.building_lowered source).1 _ _ _ built empty
  | plot read => exact Formula.lowered_of_captured read _ List.mem_cons_self

theorem Passed.statement_lowered (passed : Passed sheet entered next raw statements)
    {statement : Statement} (member : statement ∈ statements) : statement.body.Lowered := by
  obtain ⟨tokens, -, read⟩ := passed.defined
  have lines := rawStatements_raw read
  cases finishStatements_mem passed.finished member with
  | plot present => exact (lines _ present).lowered
  | formula present _ done =>
    rw [Formula.finish_eq_ok done]
    exact fun callee called => (lines _ present).lowered callee (Formula.mem_calls_foldSign called)

theorem AllWritten.body_lowered (all : sheet.AllWritten) {name : String} {definition : Definition}
    (found : sheet.body? name = some definition) : definition.body.Lowered := by
  obtain ⟨f, found, given⟩ := body?_iff.mp found
  cases all name f found with
  | user read | plot read =>
    cases given
    exact Formula.lowered_of_captured read _ List.mem_cons_self
  | sequence | builtin => contradiction

def Rooted (sheet : Sheet) : Prop :=
  ∀ name b, sheet.symbols.function? name = some (.builtin b) →
    SymbolTable.withBuiltins.function? name = some (.builtin b)

theorem Reachable.rooted (reachable : sheet.Reachable) : sheet.Rooted := by
  have all := reachable.forall_functions
    (P := fun _ name f => ∀ b, f = .builtin b →
      SymbolTable.withBuiltins.function? name = some (.builtin b))
    (fun _ _ _ found b same => same ▸ found) (fun _ _ _ _ _ _ _ _ => nofun)
    (fun _ _ _ _ => nofun) fun _ _ => nofun
  exact fun name b found => all name _ found b rfl

theorem Reachable.function?_small (reachable : sheet.Reachable) {f : Function}
    (found : sheet.symbols.function? "s" = some f) :
    f = .sequence ∨
      sheet.sequence? = none ∧ ∃ definition, definition.name = "s" ∧ f = .user definition := by
  have kept := reachable.inStep "s" (.inr rfl)
  have admits := reachable.coherent "s" f found
  cases f with
  | sequence => exact .inl rfl
  | user definition =>
    refine .inr ⟨?_, definition, admits.1, rfl⟩
    rw [Keeps, found] at kept
    simpa using kept
  | plot definition => exact absurd admits.2.1 (by decide)
  | builtin b =>
    have missing : SymbolTable.withBuiltins.function? "s" = none := by decide +kernel
    rw [reachable.rooted "s" b found] at missing
    contradiction

inductive Contains (sheet : Sheet) (statements : List Statement) : Formula → Prop
  | statement {statement : Statement} : statement ∈ statements →
      Contains sheet statements statement.body
  | body {name : String} {definition : Definition} : sheet.body? name = some definition →
      Contains sheet statements definition.body

/-- On a sheet that was read without an error, whatever is called otherwise than with a plain call
is the sequence, or else the function `s` of a sheet that has no sequence. -/
theorem query_of_parse (source : String) (limits : Limits) (sheet : Sheet)
    (statements : List Statement)
    (parsed : (ofSource source limits).parse = (sheet, .ok statements)) :
    ∀ formula, sheet.Contains statements formula →
      ∀ callee arguments, formula.Has (.call callee arguments) →
        ∃ f, sheet.symbols.function? callee.name = some f ∧
          (callee.kind = .plain ∨ f = .sequence ∨
            sheet.sequence? = none ∧
              ∃ definition, definition.name = "s" ∧ f = .user definition) := by
  have reachable := reachable_of_parse parsed
  obtain ⟨valid, fit⟩ := valid_of_parse parsed
  obtain ⟨entered, raw, passed⟩ := parse_eq_ok parsed
  intro formula contained callee arguments has
  have known : sheet.Fits callee arguments ∧ formula.Lowered := by
    cases contained with
    | statement member => exact ⟨fit _ member _ _ has, passed.statement_lowered member⟩
    | body found => exact ⟨valid.bodies _ _ found _ _ has, reachable.allWritten.body_lowered found⟩
  obtain ⟨⟨f, found, -⟩, lowered⟩ := known
  refine ⟨f, found, ?_⟩
  rcases lowered callee (Formula.mem_calls_iff_has.mpr ⟨arguments, has⟩) with plain | small
  · exact .inl plain
  · rw [small] at found
    exact .inr (reachable.function?_small found)

theorem query_of_parse_sequence :
    ∃ sheet statements, (ofSource "f(a)=a*S?(6)\nS=2,6\nf(s!!(8))" {}).parse =
        (sheet, .ok statements) ∧
      ∀ formula, sheet.Contains statements formula →
        ∀ callee arguments, formula.Has (.call callee arguments) → callee.kind ≠ .plain →
          sheet.symbols.function? callee.name = some .sequence := by
  obtain ⟨sheet, statements, parsed⟩ := eq_ok_of_isSome
    (by decide +kernel : (ofSource "f(a)=a*S?(6)\nS=2,6\nf(s!!(8))" {}).parse.2.toOption.isSome)
  refine ⟨sheet, statements, parsed, ?_⟩
  intro formula contained callee arguments has queried
  have present : (ofSource "f(a)=a*S?(6)\nS=2,6\nf(s!!(8))" {}).parse.1.sequence?.isSome := by
    decide +kernel
  rw [parsed] at present
  obtain ⟨f, found, plain | rfl | ⟨missing, -⟩⟩ :=
    query_of_parse _ _ _ _ parsed formula contained callee arguments has
  · contradiction
  · exact found
  · rw [missing] at present
    contradiction

-- A function that took the name of a missing sequence answers its queries.
theorem query_reaches_user :
    ∃ sheet statements, (ofSource "s(x)=x\ns?(2)" {}).parse = (sheet, .ok statements) ∧
      ∃ formula, sheet.Contains statements formula ∧
        ∃ callee arguments, formula.Has (.call callee arguments) ∧ callee.kind ≠ .plain ∧
          sheet.symbols.function? callee.name ≠ some .sequence := by
  obtain ⟨sheet, statements, parsed⟩ := eq_ok_of_isSome
    (by decide +kernel : (ofSource "s(x)=x\ns?(2)" {}).parse.2.toOption.isSome)
  have called : (ofSource "s(x)=x\ns?(2)" {}).parse.2.toOption.map
      (fun statements => statements.map fun statement => Formula.calls statement.body) =
      some [[⟨⟨"s?(2)", ⟨7, 2, 1⟩⟩, "s", .query .indexOfTerm⟩]] := by
    decide +kernel
  have user : ((ofSource "s(x)=x\ns?(2)" {}).parse.1.userBody? "s").isSome := by
    decide +kernel
  rw [parsed] at called user
  obtain ⟨definition, found⟩ := Option.isSome_iff_exists.mp user
  obtain ⟨statement, rfl, calls⟩ := List.map_eq_singleton_iff.mp (Option.some.inj called)
  obtain ⟨arguments, has⟩ := Formula.mem_calls_iff_has.mp (calls ▸ List.mem_cons_self)
  refine ⟨sheet, _, parsed, _, .statement List.mem_cons_self, _, arguments, has, by decide, ?_⟩
  rw [userBody?_eq_some.mp found]
  exact nofun

end Sheet

end FormulaSheet
