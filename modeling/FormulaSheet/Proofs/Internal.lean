import FormulaSheet.Proofs.Lexing.Reading
import FormulaSheet.Proofs.Mishaps
import FormulaSheet.Proofs.Running
import FormulaSheet.Proofs.Session.Brackets
import FormulaSheet.Proofs.Termination
import FormulaSheet.Proofs.Validation

set_option autoImplicit false

namespace FormulaSheet

def External {α : Type} (x : Except Error α) : Prop :=
  ∀ fault, x ≠ .error (.internal fault)

namespace External

variable {α β : Type}

theorem ok (a : α) : External (.ok a) := nofun

theorem grammar (fault : GrammarFault) (position : Position) :
    External (.error (.grammar fault position) : Except Error α) := nofun

theorem naming (fault : NamingFault) (position : Position) :
    External (.error (.naming fault position) : Except Error α) := nofun

theorem arithmetic (fault : ArithmeticFault) (position : Position) (left right : Float) :
    External (.error (.arithmetic fault position left right) : Except Error α) := nofun

theorem bind {x : Except Error α} {f : α → Except Error β} (first : External x)
    (later : ∀ a, x = .ok a → External (f a)) : External (x >>= f) := by
  intro fault failed
  rcases Outcome.bind_eq_error.mp failed with failed | ⟨a, done, failed⟩
  · exact first fault failed
  · exact later a done fault failed

theorem map {x : Except Error α} {f : α → β} (h : External x) : External (x.map f) :=
  fun fault failed => h fault (Outcome.map_eq_error.mp failed)

theorem mapError {ε : Type} {x : Except ε α} {f : ε → Error}
    (named : ∀ cause fault, f cause ≠ .internal fault) : External (x.mapError f) := by
  intro fault failed
  obtain ⟨cause, -, same⟩ := Outcome.mapError_eq_error.mp failed
  exact named cause fault same

theorem mapM {f : α → Except Error β} {xs : List α} (each : ∀ x ∈ xs, External (f x)) :
    External (xs.mapM f) := by
  intro fault failed
  obtain ⟨x, member, failed⟩ := Outcome.mapM_error failed
  exact each x member fault failed

theorem forM {f : α → Except Error PUnit} {xs : List α} (each : ∀ x ∈ xs, External (f x)) :
    External (xs.forM f) := by
  induction xs with
  | nil => exact ok _
  | cons x xs ih =>
    obtain ⟨first, later⟩ := List.forall_mem_cons.mp each
    exact bind first fun _ _ => ih later

end External

section Reading

theorem Formula.finish_external (source : String) (formula : Formula) :
    External (formula.finish source) := by
  simp only [finish]
  split
  · exact .grammar _ _
  · exact .ok _

theorem Formula.building_external (source : String) :
    (∀ done tokens, External (chain source done tokens)) ∧
      ∀ grammar capture, External (captured source grammar capture) := by
  -- The cases are those of `chain`, `captured`, `lines` and `rawLines`, which call each other.
  have cases := chain.mutual_induct source
    (fun done tokens => External (chain source done tokens))
    (fun grammar capture => External (captured source grammar capture))
    (fun tokens => External (lines source tokens))
    (fun tokens => External (rawLines source tokens))
    ?nil ?separator ?definition ?number ?name ?operator ?refused ?unclosed ?group ?closing ?equals
    ?call ?query ?unread ?read ?lines ?rawLines
  · exact ⟨cases.1, cases.2.1⟩
  case nil =>
    intro done
    rw [chain]
    exact .ok _
  case separator =>
    intro done token rest shape
    rw [chain_ended (.inl shape)]
    exact .ok _
  case definition =>
    intro done token rest outline shape
    rw [chain_ended (.inr ⟨outline, shape⟩)]
    exact .ok _
  case number =>
    intro done token rest value shape ih
    rw [chain_number shape]
    exact ih
  case name =>
    intro done token rest shape ih
    rw [chain_name shape]
    exact ih
  case operator =>
    intro done token rest operation shape after added ih
    rw [chain_operator shape added]
    exact ih
  case refused =>
    intro done token rest operation shape fault failed
    rw [chain_operator_error shape failed]
    exact .grammar _ _
  case unclosed =>
    intro done token rest shape unclosed
    rw [chain_unclosed shape unclosed]
    exact .grammar _ _
  case group =>
    intro done token rest shape inside after found inner outer
    rw [chain_inside shape found]
    refine inner.bind fun groups _ => ?_
    split
    · exact outer _
    · exact .grammar _ _
    · exact .grammar _ _
  case closing =>
    intro done token rest shape
    rw [chain_closing shape]
    exact .grammar _ _
  case equals =>
    intro done token rest shape
    rw [chain_equals shape]
    exact .grammar _ _
  case call =>
    intro done token rest callee arguments shape inner outer
    rw [chain_call shape]
    exact inner.bind fun values _ => outer values
  case query =>
    intro done token rest asked arguments shape inner outer
    rw [chain_query shape]
    exact inner.bind fun values _ => outer values
  case unread =>
    intro grammar capture reading error failed
    obtain ⟨fault, position, rfl, -⟩ := Token.readFrom_failure failed
    rw [captured, failed]
    exact .grammar _ _
  case read =>
    intro grammar capture reading read ih
    rw [captured, read]
    exact ih
  case lines =>
    intro tokens ih
    rw [lines]
    exact ih.bind fun raw _ => .mapM fun formula _ => finish_external source formula
  case rawLines =>
    intro tokens first later
    rw [rawLines]
    refine first.bind fun formula _ => ?_
    split
    · exact .ok _
    next rest stop => exact (later rest stop).bind fun _ _ => .ok _
    · exact .grammar _ _

theorem Token.Lexed.ofText {source : String} {token : Token} {operation : Operation}
    (lexed : token.Lexed source) (shape : token.shape = .operator operation) :
    Operation.ofText token.site.text = .ok operation := by
  obtain ⟨grammar, place, cs, -, member⟩ := lexed.exists_readFrom
  obtain ⟨before, text, after, -, site, found⟩ := Token.readFrom_stands member
  have spelled := Token.Grammar.spelled found
  rw [shape] at spelled
  cases spelled
  rw [site]
  exact Operation.ofText_text operation

theorem Session.traverse_halt {definitions : Bool} {tokens : List Token} {sheet : Sheet}
    {halt : Halt} (halted : (Session.traverse definitions tokens sheet).2 = .error halt) :
    ∃ e, halt = .error e := by
  cases definitions with
  | false =>
    rw [traverse_below] at halted
    obtain ⟨e, -, rfl⟩ := Outcome.mapError_eq_error.mp halted
    exact ⟨e, rfl⟩
  | true =>
    rw [traverse_top] at halted
    obtain ⟨e, -, rfl⟩ := Outcome.mapError_eq_error.mp halted
    exact ⟨e, rfl⟩

end Reading

def Capture.isGiven (term : Capture) : Bool :=
  !(Text.trim term.text.toList).isEmpty

def Sequence.given (s : Sequence) : List Capture :=
  s.terms.takeWhile Capture.isGiven

theorem Sequence.given_eq {s : Sequence} (enough : 2 ≤ s.given.length) :
    s.given = s.first :: s.second :: (s.third.filter Capture.isGiven).toList := by
  unfold given terms at enough ⊢
  simp only [List.takeWhile_cons] at enough ⊢
  split at enough
  next first =>
    split at enough
    next second =>
      simp only [first, second, if_true]
      cases s.third with
      | none => rfl
      | some third => cases given : third.isGiven <;> simp [given, Option.filter]
    · simp at enough
  · simp at enough

namespace Sheet

variable {sheet : Sheet}

section Definitions

theorem readBody_external (site : Site) (body : Capture) : External (sheet.readBody site body) := by
  refine ((Formula.building_external sheet.source).2 .statements body).bind fun formulas _ => ?_
  split
  · exact .ok _
  · exact .grammar _ _
  · exact .grammar _ _

theorem define_external (site : Site) (outline : Outline) :
    External (sheet.define site outline) := by
  cases outline with
  | function name parameters body =>
    refine .bind ?_ fun _ _ => .ok _
    unfold defineFunction
    split
    · exact .grammar _ _
    · refine .bind (.mapError nofun) fun names _ => ?_
      exact (readBody_external site body).bind fun _ _ => .ok _
  | plot body =>
    refine .bind ?_ fun _ _ => .ok _
    exact (readBody_external site body).bind fun _ _ => .ok _
  | sequence first second third =>
    refine .bind ?_ fun _ _ => .ok _
    unfold defineSequence
    split
    · exact .grammar _ _
    · exact .ok _

theorem rawStatements_external (sheet : Sheet) (tokens : List Token) :
    External (sheet.rawStatements tokens).2 := by
  fun_induction rawStatements sheet tokens with
  | case1 sheet tokens e failed =>
    intro fault same
    cases same
    exact (Formula.building_external sheet.source).1 [] tokens fault failed
  | case2 => exact .ok _
  | case3 sheet tokens formula found rest stop next others read ih =>
    rw [read] at ih
    exact ih.map
  | case4 => exact .grammar _ _
  | case5 sheet tokens formula found site outline rest stop empty e failed =>
    intro fault same
    cases same
    exact define_external site outline fault failed
  | case6 sheet tokens formula found site outline rest stop empty defined statements entered next
      others read ih =>
    rw [read] at ih
    exact ih.map

end Definitions

section Checks

theorem checkArity_external (callee : Callee) (f : Function) (given : Nat) :
    External (sheet.checkArity callee f given) := by
  intro fault failed
  obtain ⟨_, named⟩ := checkArity_error failed
  cases named

theorem checkCall_external (parameters : List String) (callee : Callee)
    (arguments : List Formula) : External (sheet.checkCall parameters callee arguments) := by
  unfold checkCall
  split
  · refine (checkArity_external _ _ _).bind fun _ _ => .forM fun argument _ => ?_
    unfold checkArgument
    split
    · split
      · exact .ok _
      · exact .naming _ _
    · exact .ok _
  · exact .naming _ _
  · exact .naming _ _

theorem checkFormula_external (parameters : List String) (names : Bool) (formula : Formula) :
    External (checkFormula sheet parameters names formula) := by
  induction formula using Formula.nesting_induction with
  | step formula inBracket inArgument =>
    rw [checkFormula_eq_forM]
    refine .forM fun part member => ?_
    cases part with
    | literal | operator => exact .ok _
    | name site =>
      rw [checkPart]
      split
      · exact .naming _ _
      · exact .ok _
    | bracket opening inside =>
      rw [checkPart]
      exact inBracket opening inside member
    | call callee arguments =>
      rw [checkPart, checkFormulas_eq_forM]
      exact (checkCall_external parameters callee arguments).bind fun _ _ =>
        .forM (inArgument callee arguments member)

theorem checkFunction_external (f : Function) : External (sheet.checkFunction f) := by
  unfold checkFunction
  split
  · exact checkFormula_external _ _ _
  · exact .ok _

theorem checkStatement_external (statement : Statement) :
    External (sheet.checkStatement statement) := by
  cases statement with
  | formula formula => exact checkFormula_external _ _ _
  | plot definition => exact checkFunction_external (.plot definition)

theorem checkSelfCalls_external : External sheet.checkSelfCalls := by
  refine .forM fun f _ => ?_
  unfold checkRecursion
  split
  · exact .ok _
  · split
    · exact .grammar _ _
    · exact .ok _

theorem finishStatements_external (source : String) (statements : List Statement) :
    External (finishStatements source statements) := by
  fun_induction finishStatements source statements with
  | case1 => exact .ok _
  | case2 rest ih => exact ih
  | case3 formula rest nonempty ih =>
    exact (Formula.finish_external source formula).bind fun _ _ => ih.bind fun _ _ => .ok _
  | case4 definition rest ih => exact ih.bind fun _ _ => .ok _

end Checks

section Terms

theorem ofTerms_external (position : Position) (first second : Float) (third : Option Float) :
    External (Progression.ofTerms position first second third) := by
  have quotient (numerator denominator : Float) :
      External (Progression.quotient position numerator denominator) := by
    unfold Progression.quotient
    split
    · exact .arithmetic _ _ _ _
    · exact .ok _
  refine (quotient second first).bind fun ratio _ => ?_
  split
  · exact .ok _
  next third =>
    refine (quotient third second).bind fun other _ => ?_
    split
    · exact .ok _
    · exact .grammar _ _

/-- Finding the values of the sequence's terms runs the definition. The terms are evaluated in
order, and none after the first that fails. -/
def TermsRun (sheet : Sheet) (definition : Definition) : Prop :=
  let bare := { sheet with sequence? := none }
  ∃ s earlier term later formula, sheet.sequence? = some s ∧
    2 ≤ s.given.length ∧ s.given = earlier ++ term :: later ∧
    (∀ other ∈ earlier, ∃ x, bare.termValue s.site other = .ok x) ∧
    Formula.captured sheet.source .arguments term = .ok [formula] ∧
    checkFormula bare [] false formula = .ok () ∧
    Runs bare bare.callDepth .empty formula definition

theorem termValue_external (sheet : Sheet) (allBuilt : sheet.AllBuilt)
    (named : ∀ name definition, sheet.body? name = some definition →
      definition.name = name ∧ name ∈ sheet.symbols.definedNames)
    {site : Site} {term : Capture}
    (apart : ∀ formula, Formula.captured sheet.source .arguments term = .ok [formula] →
      checkFormula sheet [] false formula = .ok () → ∀ definition,
        Runs sheet sheet.callDepth .empty formula definition → ¬sheet.Recursive definition) :
    External (sheet.termValue site term) := by
  refine ((Formula.building_external sheet.source).2 .arguments term).bind fun formulas read => ?_
  split
  next formula =>
    refine (checkFormula_external [] false formula).bind fun _ checked => ?_
    intro fault failed
    have built := Formula.built_of_captured read formula List.mem_cons_self
    cases allBuilt.evaluate_mishap built failed with
    | tooDeep =>
      obtain ⟨definition, runs, recursive⟩ := runs_recursive [] named (by simp) (by simp)
        (by simp) (by simp [callDepth, roomForCalls]) failed
      exact apart formula read checked definition runs recursive
  · exact .grammar _ _

theorem progressionOf_eq (s : Sequence) :
    sheet.progressionOf s =
      if s.given.length < 2 then .error (sheet.grammarError (.termCount s.given.length) s.site)
      else (do
        let first ← sheet.termValue s.site s.first
        let second ← sheet.termValue s.site s.second
        let third ← (s.third.filter Capture.isGiven).mapM (sheet.termValue s.site)
        Progression.ofTerms (s.site.locate sheet.source) first second third) := by
  simp only [progressionOf]
  split
  next few => exact (if_pos few).symm
  next enough => exact (if_neg enough).symm

theorem progressionOf_external {s : Sequence}
    (evaluated : ∀ earlier term later, 2 ≤ s.given.length → s.given = earlier ++ term :: later →
      (∀ other ∈ earlier, ∃ x, sheet.termValue s.site other = .ok x) →
        External (sheet.termValue s.site term)) :
    External (sheet.progressionOf s) := by
  rw [progressionOf_eq]
  split
  · exact .grammar _ _
  next enough =>
    have enough : 2 ≤ s.given.length := by omega
    have given := Sequence.given_eq enough
    refine (evaluated [] _ _ enough given (by simp)).bind fun first firstValue => ?_
    refine (evaluated [s.first] _ _ enough given (by simp [firstValue])).bind
      fun second secondValue => ?_
    refine .bind ?_ fun third _ => ofTerms_external _ _ _ _
    cases kept : s.third.filter Capture.isGiven with
    | none => exact .ok _
    | some third =>
      rw [kept] at given
      have last := evaluated [s.first, s.second] third [] enough given
        (by simp [firstValue, secondValue])
      exact last.map

theorem checkSequence_external (reachable : sheet.Reachable)
    (apart : ∀ definition, sheet.TermsRun definition → ¬sheet.Recursive definition) :
    External sheet.checkSequence := by
  unfold checkSequence
  split
  · exact .ok _
  next s found =>
    refine .map (progressionOf_external fun earlier term later enough given before => ?_)
    refine termValue_external { sheet with sequence? := none } reachable.allBuilt
      (fun _ _ => reachable.coherent.named) ?_
    intro formula read checked definition runs
    exact apart definition
      ⟨s, earlier, term, later, formula, found, enough, given, before, read, checked, runs⟩

end Terms

theorem check_external (statements : List Statement)
    (terms : (∀ statement ∈ statements, sheet.checkStatement statement = .ok ()) →
      External sheet.checkSequence) : External (sheet.check statements).2 := by
  unfold check
  split
  next e failed =>
    intro fault same
    cases same
    rcases Outcome.bind_eq_error.mp failed with failed | ⟨_, passed, failed⟩
    · exact External.forM (fun _ _ => checkStatement_external _) fault failed
    · exact terms (Outcome.forM_eq_ok.mp passed) fault failed
  · exact (External.forM fun f _ => checkFunction_external f).bind fun _ _ => checkSelfCalls_external

-- While the source is read, no definition that calls itself is run for the terms of the sequence.
def TermsApart (source : String) (limits : Limits) : Prop :=
  ∀ tokens entered raw, (Token.readAll .statements source).toExcept = .ok tokens →
    (ofSource source limits).rawStatements tokens = (entered, .ok raw) →
    (∀ statement ∈ raw, entered.checkStatement statement = .ok ()) →
      ∀ definition, entered.TermsRun definition → ¬entered.Recursive definition

theorem parse_external {source : String} {limits : Limits} (apart : TermsApart source limits) :
    External (ofSource source limits).parse.2 := by
  unfold parse
  split
  next e failed =>
    intro fault same
    cases same
    unfold Token.Reading.toExcept at failed
    split at failed
    next found =>
      cases failed
      obtain ⟨fault, position, same, -⟩ := Token.readFrom_failure found
      cases same
    · contradiction
  next tokens read =>
    have defining := rawStatements_external (ofSource source limits) tokens
    have steps := rawStatements_steps (ofSource source limits) tokens
    unfold readTokens
    split
    next entered e failed =>
      rw [failed] at defining
      exact defining
    next entered raw defined =>
      rw [defined] at steps
      have reachable := (reachable_ofSource source limits).steps steps
      have checking := entered.check_external raw fun passed =>
        checkSequence_external reachable (apart tokens entered raw read defined passed)
      split
      next failed =>
        rw [failed] at checking
        intro fault same
        cases same
        exact checking fault rfl
      · exact finishStatements_external _ _

theorem output_external {source : String} {limits : Limits} {statements : List Statement}
    (parsed : (ofSource source limits).parse = (sheet, .ok statements)) {statement : Statement}
    (member : statement ∈ statements) (plotNumber : Nat) :
    External (sheet.output plotNumber statement) := by
  obtain ⟨entered, raw, passed⟩ := parse_eq_ok parsed
  obtain ⟨rank, ranked⟩ := (reachable_of_parse parsed).coherent.ranked passed.selfCalls
  intro fault failed
  cases mishap_of_parse parsed member failed with
  | tooDeep => exact ranked.output_not_tooDeep plotNumber statement failed

theorem termsApart_of_selfCalls {source : String} {limits : Limits}
    (checked : ∀ tokens, (Token.readAll .statements source).toExcept = .ok tokens →
      ((ofSource source limits).rawStatements tokens).1.checkSelfCalls = .ok ()) :
    TermsApart source limits := by
  rintro tokens entered raw read defined - definition ⟨_, _, _, _, _, -, -, -, -, -, -, runs⟩
    ⟨callee, reaches, back⟩
  have passed := checked tokens read
  have steps := rawStatements_steps (ofSource source limits) tokens
  rw [defined] at passed steps
  have coherent := ((reachable_ofSource source limits).steps steps).coherent
  obtain ⟨name, found⟩ := runs.known
  have own : entered.body? definition.name = some definition := by
    rw [(coherent.named found).1]
    exact found
  exact coherent.no_return passed own reaches back

/-- Neither reading a source nor running it nor evaluating one of its statements ends in an internal
fault, unless the terms of its sequence run a definition that calls itself. Nor does a pass over
tokens meet a plot among arguments, or an operator whose text names no operation. There is no fault
for tokens or captures of a wrong kind or number: shapes, outlines and statements carry just what the
rules give them. -/
theorem never_internal (source : String) (limits : Limits) (apart : TermsApart source limits) :
    (∀ fault, (ofSource source limits).parse.2 ≠ .error (.internal fault)) ∧
    (∀ fault, (ofSource source limits).runAll.2 ≠ .error (.internal fault)) ∧
    (∀ sheet statements, (ofSource source limits).parse = (sheet, .ok statements) →
      ∀ statement ∈ statements, ∀ plotNumber fault,
        sheet.output plotNumber statement ≠ .error (.internal fault)) ∧
    (∀ definitions tokens sheet,
      (Session.traverse definitions tokens sheet).2 ≠ .error .strayPlot) ∧
    ∀ token operation, Token.Lexed source token → token.shape = .operator operation →
      Operation.ofText token.site.text = .ok operation := by
  have reading := parse_external apart
  refine ⟨reading, ?_, fun sheet statements parsed statement member =>
    output_external parsed member, ?_, fun token operation => Token.Lexed.ofText⟩
  · intro fault failed
    rcases runAll_eq_error failed with failed | ⟨sheet, statements, parsed, statement, member,
      number, failed⟩
    · exact reading fault failed
    · exact output_external parsed member number fault failed
  · intro definitions tokens sheet halted
    obtain ⟨e, same⟩ := Session.traverse_halt halted
    cases same

-- The second term runs a function that runs another.
theorem never_internal_nested_terms :
    TermsApart "f(a)=g(a)+1\ng(a)=a\nS=g(1),f(1)\ny=1/x\n-f(2)" {} ∧
      ∀ fault, (ofSource "f(a)=g(a)+1\ng(a)=a\nS=g(1),f(1)\ny=1/x\n-f(2)" {}).runAll.2 ≠
        .error (.internal fault) := by
  have checked : ((Token.readAll .statements
      "f(a)=g(a)+1\ng(a)=a\nS=g(1),f(1)\ny=1/x\n-f(2)").toExcept.toOption.all fun tokens =>
      ((ofSource "f(a)=g(a)+1\ng(a)=a\nS=g(1),f(1)\ny=1/x\n-f(2)" {}).rawStatements
        tokens).1.checkSelfCalls = .ok ()) := by decide +kernel
  have apart : TermsApart "f(a)=g(a)+1\ng(a)=a\nS=g(1),f(1)\ny=1/x\n-f(2)" {} := by
    apply termsApart_of_selfCalls
    intro tokens read
    rw [read] at checked
    exact of_decide_eq_true checked
  exact ⟨apart, (never_internal _ _ apart).2.1⟩

end Sheet

end FormulaSheet
