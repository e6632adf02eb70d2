import FormulaSheet.Proofs.Context.Building
import FormulaSheet.Proofs.Parsed
import FormulaSheet.Proofs.Validation

set_option autoImplicit false

namespace FormulaSheet

open Formula (lineEnd chain)

namespace Sheet

section Lines

variable {sheet next last : Sheet} {tokens rest : List Token} {statements others : List Statement}

inductive Entered : Sheet → List Token → Sheet → List Statement → Prop
  | done (sheet : Sheet) : Entered sheet [] sheet []
  | blank {sheet next : Sheet} {separator : Token} {rest : List Token}
      {statements : List Statement} : separator.shape = .separator →
        Entered sheet rest next statements → Entered sheet (separator :: rest) next statements
  | definition {sheet middle next : Sheet} {token : Token} {outline : Outline}
      {rest : List Token} {defined statements : List Statement} :
      token.shape = .definition outline → sheet.define token.site outline = .ok (middle, defined) →
        Entered middle (skipSeparator rest) next statements →
          Entered sheet (token :: rest) next (defined ++ statements)
  | last {sheet : Sheet} {line : List Token} {formula : Formula} :
      Line sheet.source line formula → Entered sheet line sheet [.formula formula]
  | line {sheet next : Sheet} {line rest : List Token} {separator : Token} {formula : Formula}
      {statements : List Statement} : Line sheet.source line formula →
        separator.shape = .separator → Entered sheet rest next statements →
          Entered sheet (line ++ separator :: rest) next (.formula formula :: statements)

theorem Entered.of_nil (h : Entered sheet [] next statements) :
    next = sheet ∧ statements = [] := by
  generalize same : ([] : List Token) = tokens at h
  cases h with
  | done => exact ⟨rfl, rfl⟩
  | blank | definition => contradiction
  | last held =>
    subst same
    obtain ⟨raw, built, nonempty, -⟩ := held.built
    rw [chain] at built
    cases built
    contradiction
  | line => simp at same

theorem Entered.source (h : Entered sheet tokens next statements) :
    next.source = sheet.source := by
  induction h with
  | done | last => rfl
  | blank _ _ ih | line _ _ _ ih => exact ih
  | definition _ entered _ ih => exact ih.trans (define_source entered)

theorem finishStatements_formula (source : String) {formula finished : Formula}
    (nonempty : formula ≠ []) (done : formula.finish source = .ok finished)
    {raw : List Statement} (rest : finishStatements source raw = .ok statements) :
    finishStatements source (.formula formula :: raw) = .ok (.formula finished :: statements) := by
  cases formula with
  | nil => contradiction
  | cons part parts =>
    rw [finishStatements, done, rest]
    · rfl
    · simp

theorem finishStatements_defined (source : String) {site : Site} {outline : Outline}
    {defined : List Statement} (h : sheet.define site outline = .ok (next, defined))
    (raw : List Statement) : finishStatements source (defined ++ raw) =
      (finishStatements source raw).map (defined ++ ·) := by
  cases define_iff.mp h with
  | function | sequence =>
    simp only [List.nil_append]
    cases finishStatements source raw <;> rfl
  | plot =>
    simp only [List.singleton_append, finishStatements]
    cases finishStatements source raw <;> rfl

theorem Entered.rawStatements (h : Entered sheet tokens next statements) :
    ∃ raw, sheet.rawStatements tokens = (next, .ok raw) ∧
      finishStatements sheet.source raw = .ok statements := by
  induction h with
  | done sheet =>
    refine ⟨[.formula []], rawStatements_last ?_ rfl, rfl⟩
    rw [chain]
    rfl
  | @blank sheet next separator rest statements shape _ ih =>
    obtain ⟨raw, read, finished⟩ := ih
    have stop : lineEnd 0 (separator :: rest) = .separator rest := by simp [lineEnd, shape]
    refine ⟨.formula [] :: raw, ?_, finished⟩
    rw [rawStatements_line (Formula.chain_ended (.inl shape)) stop, read]
    rfl
  | @definition sheet middle next token outline rest defined statements shape entered _ ih =>
    obtain ⟨raw, read, finished⟩ := ih
    have stop : lineEnd 0 (token :: rest) = .definition token.site outline rest := by
      simp [lineEnd, shape]
    refine ⟨defined ++ raw, ?_, ?_⟩
    · rw [rawStatements_define (Formula.chain_ended (.inr ⟨outline, shape⟩)) stop entered, read]
      rfl
    · rw [finishStatements_defined _ entered, ← define_source entered, finished]
      rfl
  | @last sheet line formula held =>
    obtain ⟨raw, built, nonempty, done⟩ := held.built
    refine ⟨[.formula raw], rawStatements_last built held.unbroken, ?_⟩
    exact finishStatements_formula _ nonempty done rfl
  | @line sheet next line rest separator formula statements held shape _ ih =>
    obtain ⟨raw, read, finished⟩ := ih
    obtain ⟨first, built, nonempty, done, stop⟩ := held.followed shape rest
    refine ⟨.formula first :: raw, ?_, finishStatements_formula _ nonempty done finished⟩
    rw [rawStatements_line built stop, read]
    rfl

theorem finishStatements_cons {source : String} {formula : Formula} {raw : List Statement}
    (h : finishStatements source (.formula formula :: raw) = .ok statements) :
    ∃ others, finishStatements source raw = .ok others ∧
      (formula = [] ∧ statements = others ∨ formula ≠ [] ∧
        ∃ finished, formula.finish source = .ok finished ∧
          statements = .formula finished :: others) := by
  cases formula with
  | nil => exact ⟨statements, h, .inl ⟨rfl, rfl⟩⟩
  | cons part parts =>
    rw [finishStatements] at h
    · obtain ⟨finished, done, h⟩ := Outcome.bind_eq_ok.mp h
      obtain ⟨others, rest, h⟩ := Outcome.bind_eq_ok.mp h
      cases h
      exact ⟨others, rest, .inr ⟨by simp, finished, done, rfl⟩⟩
    · simp

theorem entered_of_rawStatements {raw : List Statement}
    (read : sheet.rawStatements tokens = (next, .ok raw))
    (finished : finishStatements sheet.source raw = .ok statements) :
    Entered sheet tokens next statements := by
  fun_induction Sheet.rawStatements sheet tokens generalizing next raw statements with
  | case1 => cases read
  | case2 sheet tokens formula found stop =>
    cases read
    obtain ⟨others, none, ⟨rfl, rfl⟩ | ⟨nonempty, formula, done, rfl⟩⟩ :=
      finishStatements_cons finished
    · cases none
      rcases chain_empty found with rfl | ⟨token, rest, rfl, shape | ⟨outline, shape⟩⟩
      · exact .done sheet
      · simp [lineEnd, shape] at stop
      · simp [lineEnd, shape] at stop
    · cases none
      exact .last (line_of_input found stop nonempty done)
  | case3 sheet tokens formula found rest stop following listed later ih =>
    obtain ⟨rfl, listing⟩ := Prod.mk.inj read
    obtain ⟨raw, rfl, rfl⟩ := Outcome.map_eq_ok.mp listing
    obtain ⟨others, done, ⟨rfl, rfl⟩ | ⟨nonempty, formula, first, rfl⟩⟩ :=
      finishStatements_cons finished
    · have entered := ih later done
      rcases chain_empty found with rfl | ⟨token, rest, rfl, shape | ⟨outline, shape⟩⟩
      · contradiction
      · simp only [lineEnd, shape] at stop
        cases stop
        exact .blank shape entered
      · simp [lineEnd, shape] at stop
    · obtain ⟨line, separator, rfl, shape, held⟩ := line_of_separator found stop nonempty first
      exact .line held shape (ih later done)
  | case4 => cases read
  | case5 => cases read
  | case6 sheet tokens formula found site outline rest stop empty middle defined entered following
      listed later ih =>
    obtain rfl : formula = [] := by simpa using empty
    obtain ⟨rfl, listing⟩ := Prod.mk.inj read
    obtain ⟨raw, rfl, rfl⟩ := Outcome.map_eq_ok.mp listing
    rw [finishStatements_defined _ entered, ← define_source entered] at finished
    obtain ⟨others, done, rfl⟩ := Outcome.map_eq_ok.mp finished
    rcases chain_empty found with rfl | ⟨token, rest, rfl, shape | ⟨outline, shape⟩⟩
    · contradiction
    · simp [lineEnd, shape] at stop
    · simp only [lineEnd, shape] at stop
      cases stop
      exact .definition shape entered (ih later done)

section Following

variable {separator : Token}

theorem skipSeparator_append {second : Token} {between : List Token} :
    skipSeparator (second :: between ++ separator :: rest) =
      skipSeparator (second :: between) ++ separator :: rest := by
  simp only [skipSeparator, List.cons_append]
  split <;> rfl

theorem Entered.append (h : Entered sheet tokens next statements)
    (shape : separator.shape = .separator) (later : Entered next rest last others) :
    Entered sheet (tokens ++ separator :: rest) last (statements ++ others) := by
  induction h with
  | done => exact .blank shape later
  | blank first _ ih => exact .blank first (ih later)
  | @definition sheet middle next token outline between defined statements first entered after ih =>
    rw [List.append_assoc, List.cons_append]
    refine .definition first entered ?_
    cases between with
    | nil =>
      obtain ⟨rfl, rfl⟩ := after.of_nil
      simpa [skipSeparator, shape] using later
    | cons second between =>
      rw [skipSeparator_append]
      exact ih later
  | last held => exact .line held shape later
  | line held first _ ih =>
    rw [List.append_assoc, List.cons_append]
    exact .line held first (ih later)

theorem Entered.of_blank (h : Entered sheet (separator :: rest) last statements)
    (shape : separator.shape = .separator) : Entered sheet rest last statements := by
  obtain ⟨raw, read, finished⟩ := h.rawStatements
  have stop : lineEnd 0 (separator :: rest) = .separator rest := by simp [lineEnd, shape]
  rw [rawStatements_line (Formula.chain_ended (.inl shape)) stop] at read
  obtain ⟨same, listing⟩ := Prod.mk.inj read
  obtain ⟨raw, found, rfl⟩ := Outcome.map_eq_ok.mp listing
  exact entered_of_rawStatements (Prod.ext same found) finished

theorem Entered.of_definition {token : Token} {outline : Outline} {defined : List Statement}
    (h : Entered sheet (token :: rest) last statements)
    (shape : token.shape = .definition outline)
    (entered : sheet.define token.site outline = .ok (next, defined)) :
    ∃ others, statements = defined ++ others ∧
      Entered next (skipSeparator rest) last others := by
  obtain ⟨raw, read, finished⟩ := h.rawStatements
  have stop : lineEnd 0 (token :: rest) = .definition token.site outline rest := by
    simp [lineEnd, shape]
  rw [rawStatements_define (Formula.chain_ended (.inr ⟨outline, shape⟩)) stop entered] at read
  obtain ⟨same, listing⟩ := Prod.mk.inj read
  obtain ⟨raw, found, rfl⟩ := Outcome.map_eq_ok.mp listing
  rw [finishStatements_defined _ entered, ← define_source entered] at finished
  obtain ⟨others, done, rfl⟩ := Outcome.map_eq_ok.mp finished
  exact ⟨others, rfl, entered_of_rawStatements (Prod.ext same found) done⟩

theorem Entered.of_line {line : List Token} {formula : Formula}
    (h : Entered sheet (line ++ separator :: rest) last statements)
    (held : Line sheet.source line formula) (shape : separator.shape = .separator) :
    ∃ others, statements = .formula formula :: others ∧ Entered sheet rest last others := by
  obtain ⟨raw, read, finished⟩ := h.rawStatements
  obtain ⟨first, built, nonempty, done, stop⟩ := held.followed shape rest
  rw [rawStatements_line built stop] at read
  obtain ⟨same, listing⟩ := Prod.mk.inj read
  obtain ⟨raw, found, rfl⟩ := Outcome.map_eq_ok.mp listing
  obtain ⟨others, later, ⟨empty, -⟩ | ⟨-, formula, again, rfl⟩⟩ := finishStatements_cons finished
  · contradiction
  · rw [done] at again
    cases again
    exact ⟨others, rfl, entered_of_rawStatements (Prod.ext same found) later⟩

theorem Entered.following (h : Entered sheet tokens next statements)
    (shape : separator.shape = .separator)
    (whole : Entered sheet (tokens ++ separator :: rest) last others) :
    ∃ later, others = statements ++ later ∧ Entered next rest last later := by
  induction h generalizing others with
  | done => exact ⟨others, rfl, whole.of_blank shape⟩
  | blank first _ ih => exact ih (whole.of_blank first)
  | @definition sheet middle next token outline between defined statements first entered after ih =>
    rw [List.cons_append] at whole
    obtain ⟨others, rfl, follows⟩ := whole.of_definition first entered
    cases between with
    | nil =>
      obtain ⟨rfl, rfl⟩ := after.of_nil
      exact ⟨others, by simp, by simpa [skipSeparator, shape] using follows⟩
    | cons second between =>
      rw [skipSeparator_append] at follows
      obtain ⟨later, rfl, entered⟩ := ih follows
      exact ⟨later, by simp, entered⟩
  | last held => exact whole.of_line held shape
  | line held first _ ih =>
    rw [List.append_assoc, List.cons_append] at whole
    obtain ⟨others, rfl, follows⟩ := whole.of_line held first
    obtain ⟨later, rfl, entered⟩ := ih follows
    exact ⟨later, rfl, entered⟩

theorem Entered.truncate (h : Entered sheet (tokens ++ [separator]) next statements)
    (shape : separator.shape = .separator) : Entered sheet tokens next statements := by
  generalize whole : tokens ++ [separator] = all at h
  induction h generalizing tokens with
  | done => simp at whole
  | @blank sheet next first rest statements isBreak later ih =>
    cases tokens with
    | nil =>
      cases whole
      obtain ⟨rfl, rfl⟩ := later.of_nil
      exact .done _
    | cons token tokens =>
      cases whole
      exact .blank isBreak (ih rfl)
  | @definition sheet middle next token outline rest defined statements first entered later ih =>
    cases tokens with
    | nil =>
      cases whole
      rw [shape] at first
      contradiction
    | cons token tokens =>
      cases whole
      refine .definition first entered ?_
      cases tokens with
      | nil => simpa [skipSeparator, shape] using later
      | cons second tokens => exact ih skipSeparator_append.symm
  | @last sheet line formula held =>
    subst whole
    exact absurd shape held.last
  | @line sheet next line rest first formula statements held isBreak later ih =>
    rcases List.eq_nil_or_concat rest with rfl | ⟨rest, final, rfl⟩
    · obtain ⟨rfl, -⟩ := List.append_inj' whole rfl
      obtain ⟨rfl, rfl⟩ := later.of_nil
      exact .last held
    · have split : tokens ++ [separator] = (line ++ first :: rest) ++ [final] := by simp [whole]
      obtain ⟨rfl, same⟩ := List.append_inj' split rfl
      cases same
      exact .line held isBreak (ih (by simp))

end Following

end Lines

section Reading

variable {sheet entered next : Sheet} {statements : List Statement}

structure Checks (entered : Sheet) (statements : List Statement) (next : Sheet) : Prop where
  lines : ∀ statement ∈ statements, entered.checkStatement statement = .ok ()
  sequence : entered.checkSequence = .ok next
  functions : ∀ f ∈ next.symbols.definitions, next.checkFunction f = .ok ()
  selfCalls : next.checkSelfCalls = .ok ()

theorem checkFormula_foldSign (parameters : List String) (names : Bool) (formula : Formula) :
    checkFormula sheet parameters names formula.foldSign =
      checkFormula sheet parameters names formula := by
  unfold Formula.foldSign
  split
  · split
    · rfl
    · rfl
  · rfl

theorem checkStatement_finished {source : String} {raw : List Statement}
    (h : finishStatements source raw = .ok statements) :
    (∀ statement ∈ raw, sheet.checkStatement statement = .ok ()) ↔
      ∀ statement ∈ statements, sheet.checkStatement statement = .ok () := by
  fun_induction finishStatements source raw generalizing statements with
  | case1 =>
    cases h
    rfl
  | case2 rest ih =>
    rw [List.forall_mem_cons, ih h]
    exact and_iff_right rfl
  | case3 formula rest nonempty ih =>
    obtain ⟨finished, done, h⟩ := Outcome.bind_eq_ok.mp h
    obtain ⟨others, read, h⟩ := Outcome.bind_eq_ok.mp h
    cases h
    have same : sheet.checkStatement (.formula finished) =
        sheet.checkStatement (.formula formula) := by
      rw [Formula.finish_eq_ok done]
      exact checkFormula_foldSign [] false formula
    rw [List.forall_mem_cons, List.forall_mem_cons, ih read, same]
  | case4 definition rest ih =>
    obtain ⟨others, read, h⟩ := Outcome.bind_eq_ok.mp h
    cases h
    rw [List.forall_mem_cons, List.forall_mem_cons, ih read]

theorem Checks.check_eq {raw : List Statement} (h : Checks entered statements next)
    (finished : finishStatements entered.source raw = .ok statements) :
    entered.check raw = (next, .ok ()) := by
  have lines := Outcome.forM_eq_ok.mpr ((checkStatement_finished finished).mpr h.lines)
  have functions := Outcome.forM_eq_ok.mpr h.functions
  unfold check
  simp only [lines, h.sequence]
  exact congrArg (Prod.mk next) (Outcome.bind_eq_ok.mpr ⟨(), functions, h.selfCalls⟩)

theorem readAll_eq (grammar : Token.Grammar) (source : String) :
    Token.readAll grammar source = Token.readFrom grammar source .origin source.toList := by
  have start : Text.takeBytes 0 source.toList = [] := Text.takeBytes_append [] _
  have all : Text.dropBytes 0 source.toList = source.toList := Text.dropBytes_append [] _
  have whole := Text.takeBytes_append source.toList []
  rw [List.append_nil] at whole
  rw [Token.readAll, Token.read, start, Text.sliceBytes, all, Nat.sub_zero, whole, Place.after_nil]

theorem parse_eq_ok_iff : sheet.parse = (next, .ok statements) ↔
    ∃ tokens entered, Token.Reads .statements .origin sheet.source.toList tokens ∧
      Entered sheet tokens entered statements ∧ Checks entered statements next := by
  constructor
  · intro h
    unfold parse at h
    split at h
    · cases h
    next tokens read =>
      unfold readTokens at h
      split at h
      · cases h
      next entered raw defined =>
        split at h
        · cases h
        next checked passed =>
          obtain ⟨rfl, finished⟩ := Prod.mk.inj h
          obtain ⟨lines, sequence, functions, selfCalls⟩ := check_eq_ok passed
          have source := sheet.rawStatements_source tokens
          rw [defined] at source
          rw [checkSequence_source sequence] at finished
          have reads : Token.Reads .statements .origin sheet.source.toList tokens := by
            rw [readAll_eq] at read
            unfold Token.Reading.toExcept at read
            split at read
            · contradiction
            next unfailed =>
              cases read
              exact Token.reads_of_readFrom unfailed
          have checked := (checkStatement_finished finished).mp lines
          exact ⟨tokens, entered, reads, entered_of_rawStatements defined (source ▸ finished),
            checked, sequence, functions, selfCalls⟩
  · rintro ⟨tokens, entered, reads, lines, checks⟩
    obtain ⟨raw, defined, finished⟩ := lines.rawStatements
    unfold parse
    rw [readAll_eq, reads.readFrom_eq]
    simp only [Token.Reading.toExcept, readTokens, defined,
      checks.check_eq (lines.source ▸ finished)]
    rw [checkSequence_source checks.sequence, lines.source, finished]

end Reading

end Sheet

end FormulaSheet
