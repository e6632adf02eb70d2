import FormulaSheet.Proofs.Agreement
import FormulaSheet.Proofs.Simulation
import FormulaSheet.Proofs.Internal

set_option autoImplicit false

namespace FormulaSheet

-- The second limits refuse no number that the first accept, and plots are drawn over one range.
structure Limits.Looser (strict loose : Limits) : Prop where
  numbers : ∀ x : Float, x > loose.maxNumber → x > strict.maxNumber
  exponents : ∀ x : Float, x > loose.maxExponent → x > strict.maxExponent
  range : loose.plotRange = strict.plotRange

def Tolerance.upToRange : Tolerance where
  near := Eq
  like := Eq
  free := fun e => e.isOutOfRange
  shared := fun _ => True

section Reflexive

variable {t : Tolerance}

theorem Formula.Matches.refl (near : ∀ site, t.near site site) (shared : ∀ name, t.shared name)
    (formula : Formula) : Formula.Matches t formula formula := by
  induction formula using Formula.nesting_induction with
  | step formula inBracket inArgument =>
    refine List.forall₂_same.mpr fun part member => ?_
    cases part with
    | literal => exact .literal _ _ _
    | name => exact .name (near _) rfl (shared _)
    | operator => exact .operator (near _) rfl
    | bracket opening inside => exact .bracket (inBracket opening inside member)
    | call callee arguments =>
      refine .call (near _) rfl rfl (shared _) (List.forall₂_same.mpr fun argument given => ?_)
      exact inArgument callee arguments member argument given

theorem Function.Matches.refl (near : ∀ site, t.near site site) (shared : ∀ name, t.shared name)
    (f : Function) : f.Matches t f := by
  have same (definition : Definition) : definition.Matches t definition :=
    ⟨rfl, rfl, .refl near shared _⟩
  cases f with
  | user definition => exact .user (same definition)
  | plot definition => exact .plot (same definition)
  | sequence => exact .sequence
  | builtin b => exact .builtin b

theorem Follows.refl {α : Type} {same : α → α → Prop} (like : ∀ e, t.like e e)
    (equal : ∀ a, same a a) (x : Except Error α) : Follows t same x x := by
  cases x with
  | ok a => exact .ok (equal a)
  | error e => exact .like (like e)

end Reflexive

theorem Follows.eq_of_inRange {α : Type} {x y : Except Error α}
    (h : Follows .upToRange (· = ·) x y) : (∃ e, e.isOutOfRange ∧ x = .error e) ∨ y = x := by
  cases h with
  | ok same => exact .inr (congrArg Except.ok same.symm)
  | like same => exact .inr (congrArg Except.error same.symm)
  | free out => exact .inl ⟨_, out, rfl⟩

namespace Sheet

variable {strict loose : Limits}

abbrev under (sheet : Sheet) (limits : Limits) : Sheet :=
  { sheet with limits }

theorem linked_of_looser (looser : strict.Looser loose) (sheet : Sheet) :
    Linked .upToRange (sheet.under strict) (sheet.under loose) where
  grammar := by
    rintro site _ rfl fault
    exact .inr rfl
  naming := by
    rintro site _ rfl fault
    exact .inr rfl
  arithmetic := by
    rintro site _ rfl fault left right
    exact .inr rfl
  internal := fun _ => .inr rfl
  outOfRange := fun out => out
  like_gap := by
    rintro e _ rfl
    rfl
  free_gap := by
    intro e out
    cases e with
    | arithmetic fault => cases fault <;> first | rfl | contradiction
    | grammar | naming | internal => rfl
  numbers := looser.numbers
  exponents := looser.exponents
  range := looser.range
  constants := fun _ => rfl
  functions := by
    intro name _
    cases sheet.symbols.function? name with
    | none => exact .none
    | some f => exact .some (.refl (fun _ => rfl) (fun _ => trivial) f)
  progression := rfl

section Reading

variable {sheet : Sheet}

theorem define_limits (limits : Limits) (site : Site) (outline : Outline) :
    (sheet.under limits).define site outline =
      (sheet.define site outline).map fun (next, statements) =>
        (next.under limits, statements) := by
  have body (capture : Capture) : (sheet.under limits).readBody site capture =
      sheet.readBody site capture := rfl
  cases outline with
  | function name parameters body' =>
    simp only [define, defineFunction, body]
    split
    · rfl
    · cases readParameters name.text parameters.text.toList with
      | error => rfl
      | ok names => cases sheet.readBody site body' <;> rfl
  | plot body' =>
    simp only [define, plotOf, body]
    cases sheet.readBody site body' <;> rfl
  | sequence first second third =>
    simp only [define, defineSequence]
    split <;> rfl

theorem rawStatements_limits (limits : Limits) (tokens : List Token) :
    (sheet.under limits).rawStatements tokens =
      ((sheet.rawStatements tokens).1.under limits, (sheet.rawStatements tokens).2) := by
  fun_induction rawStatements sheet tokens with
  | case1 sheet tokens e failed => exact rawStatements_failed failed
  | case2 sheet tokens formula found stop => exact rawStatements_last found stop
  | case3 sheet tokens formula found rest stop next others read ih =>
    have found : Formula.chain (sheet.under limits).source [] tokens = .ok formula := found
    rw [rawStatements_line found stop, ih, read]
  | case4 sheet tokens formula found site outline rest stop filled =>
    exact rawStatements_unexpected found stop (by simpa using filled)
  | case5 sheet tokens formula found site outline rest stop empty e failed =>
    obtain rfl : formula = [] := by simpa using empty
    have failed : (sheet.under limits).define site outline = .error e := by
      rw [define_limits, failed]
      rfl
    have found : Formula.chain (sheet.under limits).source [] tokens = .ok [] := found
    exact rawStatements_undefined found stop failed
  | case6 sheet tokens formula found site outline rest stop empty defined statements entered next
      others read ih =>
    obtain rfl : formula = [] := by simpa using empty
    have done : (sheet.under limits).define site outline =
        .ok (defined.under limits, statements) := by
      rw [define_limits, entered]
      rfl
    have found : Formula.chain (sheet.under limits).source [] tokens = .ok [] := found
    rw [rawStatements_define found stop done, ih, read]

theorem agrees_limits (limits : Limits) : sheet.Agrees (sheet.under limits) :=
  ⟨rfl, .refl _⟩

end Reading

section Running

variable {sheet : Sheet}

theorem evaluate_limits (sheet : Sheet) (looser : strict.Looser loose) (scope : Scope)
    (formula : Formula) :
    Follows .upToRange (· = ·) ((sheet.under strict).evaluate scope formula)
      ((sheet.under loose).evaluate scope formula) :=
  (linked_of_looser looser sheet).valueAtDepth (.refl (fun _ => rfl) (fun _ => trivial) formula)
    sheet.callDepth scope

theorem termValue_limits (sheet : Sheet) (looser : strict.Looser loose) (site : Site)
    (term : Capture) :
    Follows .upToRange (· = ·) ((sheet.under strict).termValue site term)
      ((sheet.under loose).termValue site term) := by
  refine .bind (.refl (fun _ => rfl) (fun _ => rfl) (Formula.captured _ _ term)) ?_
  rintro formulas _ - - rfl
  split
  next formula =>
    rw [(agrees_limits strict).checkFormula, (agrees_limits loose).checkFormula]
    have checked : Follows .upToRange (fun _ _ => True) (checkFormula sheet [] false formula)
        (checkFormula sheet [] false formula) := .refl (fun _ => rfl) (fun _ => trivial) _
    refine checked.bind fun _ _ _ _ _ => ?_
    exact evaluate_limits _ looser .empty formula
  · exact .like rfl

theorem progressionOf_limits (sheet : Sheet) (looser : strict.Looser loose) (s : Sequence) :
    Follows .upToRange (· = ·) ((sheet.under strict).progressionOf s)
      ((sheet.under loose).progressionOf s) := by
  rw [progressionOf_eq, progressionOf_eq]
  split
  · exact .like rfl
  refine (termValue_limits _ looser s.site s.first).bind ?_
  rintro first _ - - rfl
  refine (termValue_limits _ looser s.site s.second).bind ?_
  rintro second _ - - rfl
  have third : Follows .upToRange (· = ·)
      ((s.third.filter Capture.isGiven).mapM
        ((sheet.under strict).termValue s.site))
      ((s.third.filter Capture.isGiven).mapM
        ((sheet.under loose).termValue s.site)) := by
    cases s.third.filter Capture.isGiven with
    | none => exact .ok rfl
    | some term => exact (termValue_limits _ looser s.site term).map fun _ _ => congrArg some
  refine third.bind ?_
  rintro third _ - - rfl
  exact .refl (fun _ => rfl) (fun _ => rfl) _

theorem checkSequence_limits (sheet : Sheet) (looser : strict.Looser loose) :
    Follows .upToRange (fun next next' => next = next.under strict ∧
        next' = next.under loose)
      (sheet.under strict).checkSequence
      (sheet.under loose).checkSequence := by
  unfold checkSequence
  cases sheet.sequence? with
  | none => exact .ok ⟨rfl, rfl⟩
  | some s =>
    refine (progressionOf_limits { sheet with sequence? := none } looser s).map ?_
    rintro progression _ rfl
    exact ⟨rfl, rfl⟩

theorem check_limits (sheet : Sheet) (looser : strict.Looser loose) (statements : List Statement) :
    (∃ e, e.isOutOfRange ∧
      ((sheet.under strict).check statements).2 = .error e) ∨
    ∃ (next : Sheet) (outcome : _),
      (sheet.under strict).check statements = (next.under strict, outcome) ∧
        (sheet.under loose).check statements = (next.under loose, outcome) := by
  have lines (limits : Limits) : statements.forM (sheet.under limits).checkStatement =
      statements.forM sheet.checkStatement :=
    Outcome.forM_congr fun statement _ => (agrees_limits limits).checkStatement statement
  unfold Sheet.check
  rw [lines strict, lines loose]
  cases statements.forM sheet.checkStatement with
  | error e => exact .inr ⟨sheet, .error e, rfl, rfl⟩
  | ok passed =>
    have followed := checkSequence_limits sheet looser
    generalize (sheet.under strict).checkSequence = done at followed
    generalize (sheet.under loose).checkSequence = done' at followed
    cases followed with
    | @ok next next' same =>
      obtain ⟨own, rfl⟩ := same
      refine .inr ⟨next, next.checkDefinitions, ?_, ?_⟩
      · rw [← own]
        rfl
      · exact congrArg (Prod.mk _) ((agrees_limits loose).checkDefinitions)
    | @like e _ same =>
      cases same
      exact .inr ⟨sheet, .error e, rfl, rfl⟩
    | free out => exact .inl ⟨_, out, rfl⟩

end Running

section Results

variable {sheet : Sheet}

theorem parse_limits (sheet : Sheet) (looser : strict.Looser loose) :
    (∃ e, e.isOutOfRange ∧ (sheet.under strict).parse.2 = .error e) ∨
    ∃ (next : Sheet) (outcome : _), (sheet.under strict).parse = (next.under strict, outcome) ∧
      (sheet.under loose).parse = (next.under loose, outcome) := by
  simp only [parse]
  cases (Token.readAll .statements sheet.source).toExcept with
  | error e => exact .inr ⟨sheet, .error e, rfl, rfl⟩
  | ok tokens =>
    simp only [readTokens, rawStatements_limits]
    rcases sheet.rawStatements tokens with ⟨entered, _ | raw⟩
    · exact .inr ⟨entered, _, rfl, rfl⟩
    · simp only
      rcases check_limits entered looser raw with ⟨e, out, failed⟩ | ⟨next, outcome, one,
        other⟩
      · rcases checked : (entered.under strict).check raw with ⟨next, outcome⟩
        rw [checked] at failed
        cases failed
        exact .inl ⟨e, out, rfl⟩
      · simp only [one, other]
        cases outcome with
        | error e => exact .inr ⟨next, .error e, rfl, rfl⟩
        | ok _ => exact .inr ⟨next, finishStatements next.source raw, rfl, rfl⟩

theorem output_limits (sheet : Sheet) (looser : strict.Looser loose) (plotNumber : Nat)
    (statement : Statement) :
    Follows .upToRange (· = ·)
      ((sheet.under strict).output plotNumber statement)
      ((sheet.under loose).output plotNumber statement) := by
  cases statement with
  | formula formula => exact (evaluate_limits _ looser .empty formula).map fun _ _ => congrArg _
  | plot definition =>
    have same : definition.Matches .upToRange definition :=
      ⟨rfl, rfl, .refl (fun _ => rfl) (fun _ => trivial) _⟩
    refine ((linked_of_looser looser sheet).samples same fun scope => ?_).map fun _ _ => ?_
    · exact evaluate_limits _ looser scope definition.body
    · rintro rfl
      rfl

theorem outputs_limits (sheet : Sheet) (looser : strict.Looser loose) (plots : Nat)
    (statements : List Statement) :
    Follows .upToRange (· = ·)
      ((sheet.under strict).outputs plots statements)
      ((sheet.under loose).outputs plots statements) := by
  induction statements generalizing plots with
  | nil => exact .ok rfl
  | cons statement rest ih =>
    refine (output_limits _ looser _ statement).bind ?_
    rintro output _ - - rfl
    refine (ih _).bind ?_
    rintro outputs _ - - rfl
    exact .ok rfl

theorem runAll_eq {next : Sheet} {outcome : Except Error (List Statement)}
    (parsed : sheet.parse = (next, outcome)) :
    sheet.runAll.2 = outcome.bind (next.outputs 0) := by
  unfold runAll
  rw [parsed]

theorem runAll_limits (sheet : Sheet) (looser : strict.Looser loose) :
    (∃ e, e.isOutOfRange ∧ (sheet.under strict).runAll.2 = .error e) ∨
      (sheet.under loose).runAll.2 = (sheet.under strict).runAll.2 := by
  rcases parse_limits sheet looser with ⟨e, out, failed⟩ | ⟨next, outcome, one, other⟩
  · rcases read : (sheet.under strict).parse with ⟨next, outcome⟩
    rw [read] at failed
    cases failed
    exact .inl ⟨e, out, runAll_eq read⟩
  · rw [runAll_eq one, runAll_eq other]
    cases outcome with
    | error e =>
      right
      simp only [Except.bind]
    | ok statements => exact (outputs_limits next looser 0 statements).eq_of_inRange

/-- A source that runs without meeting a number out of range has the same outcome, be it its outputs
or its error, under all limits that allow more. -/
theorem runAll_loosen (source : String) (strict loose : Limits) (looser : strict.Looser loose)
    (inRange : ∀ e, (ofSource source strict).runAll.2 = .error e → ¬e.isOutOfRange) :
    (ofSource source loose).runAll.2 = (ofSource source strict).runAll.2 := by
  rcases runAll_limits (ofSource source {}) looser with ⟨e, out, failed⟩ | same
  · exact absurd out (inRange e failed)
  · exact same

theorem not_gt_infinity (x : Float) : ¬x > 1 / 0 := by
  have unpacked : (1 / 0 : Float).toModel.unpack = .infinity .positive := by rfl
  intro larger
  have compared : (1 / 0 : Float).toModel.unpack.compare x.toModel.unpack = some .lt :=
    beq_iff_eq.mp (of_decide_eq_true larger)
  rw [unpacked] at compared
  generalize x.toModel.unpack = y at compared
  cases y with
  | infinity sign => cases sign <;> cases compared
  | notANumber | zero | finite => cases compared

theorem looser_unbounded : Limits.Looser {} { maxNumber := 1 / 0, maxExponent := 1 / 0 } :=
  ⟨fun x larger => absurd larger (not_gt_infinity x),
    fun x larger => absurd larger (not_gt_infinity x), rfl⟩

theorem runAll_loosen_unbounded :
    (ofSource "f(a)=a/2\ny=1/x\n1-f(3)" { maxNumber := 1 / 0, maxExponent := 1 / 0 }).runAll.2 =
        (ofSource "f(a)=a/2\ny=1/x\n1-f(3)" {}).runAll.2 ∧
      (ofSource "f(a)=a/2\ny=1/x\n1-f(3)" {}).runAll.2 = .ok
        [.plot ⟨1, [(-5, some (-(1 / 5))), (-4, some (-(1 / 4))), (-3, some (-(1 / 3))),
            (-2, some (-(1 / 2))), (-1, some (-1)), (0, none), (1, some 1), (2, some (1 / 2)),
            (3, some (1 / 3)), (4, some (1 / 4)), (5, some (1 / 5))]⟩,
          .number (-(1 / 2))] := by
  refine (and_iff_right_of_imp fun runs => ?_).mpr (by decide +kernel)
  refine runAll_loosen _ _ _ looser_unbounded fun e failed => ?_
  rw [runs] at failed
  contradiction

end Results

end Sheet

end FormulaSheet
