import FormulaSheet.Proofs.Agreement

set_option autoImplicit false

namespace FormulaSheet

namespace SymbolTable

variable {table other : SymbolTable} {made : List (String × Function)} {name : String}

def defineAll (table : SymbolTable) (made : List (String × Function)) : SymbolTable :=
  made.foldl (fun table entry => table.define entry.1 entry.2) table

theorem find?_defineAll (h : name ∈ made.map Prod.fst ∨ other.find? name = table.find? name) :
    (other.defineAll made).find? name = (table.defineAll made).find? name := by
  induction made generalizing table other with
  | nil => exact h.resolve_left List.not_mem_nil
  | cons entry later ih =>
    apply ih
    rw [find?_define, find?_define]
    by_cases same : name = entry.1
    · exact .inr (by rw [if_pos same, if_pos same])
    · rcases h with member | before
      · exact .inl ((List.mem_cons.mp member).resolve_left same)
      · exact .inr (by rw [if_neg same, if_neg same, before])

theorem find?_defineAll_apart (apart : name ∉ made.map Prod.fst) :
    (table.defineAll made).find? name = table.find? name := by
  induction made generalizing table with
  | nil => rfl
  | cons entry later ih =>
    obtain ⟨other, later⟩ := List.ne_and_not_mem_of_not_mem_cons apart
    exact (ih later).trans (by rw [find?_define, if_neg other])

theorem mem_definedNames_defineAll :
    name ∈ (table.defineAll made).definedNames ↔
      name ∈ made.map Prod.fst ∨ name ∈ table.definedNames := by
  induction made generalizing table with
  | nil => simp [defineAll]
  | cons entry later ih =>
    rw [show table.defineAll (entry :: later) = (table.define entry.1 entry.2).defineAll later
      from rfl, ih, mem_definedNames_define, List.map_cons, List.mem_cons]
    tauto

theorem definedNames_defineAll (known : made.map Prod.fst ⊆ table.definedNames) :
    (table.defineAll made).definedNames = table.definedNames := by
  induction made generalizing table with
  | nil => rfl
  | cons entry later ih =>
    obtain ⟨first, rest⟩ := List.cons_subset.mp known
    have kept : (table.define entry.1 entry.2).definedNames = table.definedNames := by
      have known : entry.1 ∈ (table.insert entry.1 (.function entry.2)).definedNames := first
      simp only [define, if_pos known]
      rfl
    refine (ih ?_).trans kept
    rw [kept]
    exact rest

theorem defineAll_again (table : SymbolTable) (made : List (String × Function)) :
    (table.defineAll made).Same ((table.defineAll made).defineAll made) where
  found := by
    intro name
    by_cases member : name ∈ made.map Prod.fst
    · exact find?_defineAll (.inl member)
    · exact find?_defineAll_apart member
  names := definedNames_defineAll fun _ member => mem_definedNames_defineAll.mpr (.inl member)

end SymbolTable

def Shape.definesSequence : Shape → Bool
  | .definition (.sequence ..) => true
  | _ => false

def Token.Plain (tokens : List Token) : Prop :=
  ∀ token ∈ tokens, ¬token.shape.definesSequence

instance (tokens : List Token) : Decidable (Token.Plain tokens) :=
  inferInstanceAs (Decidable (∀ token ∈ tokens, ¬token.shape.definesSequence))

theorem Token.Plain.mono {tokens rest : List Token} (plain : Token.Plain tokens)
    (within : rest ⊆ tokens) : Token.Plain rest :=
  fun token member => plain token (within member)

namespace Sheet

variable {sheet entered : Sheet} {tokens : List Token}

abbrev knowing (sheet : Sheet) (table : SymbolTable) : Sheet :=
  { sheet with symbols := table }

theorem define_knowing (bare : sheet.sequence? = none) (site : Site) {outline : Outline}
    (plain : ¬(Shape.definition outline).definesSequence) :
    ∃ made : Except Error (String × Function × List Statement), ∀ table,
      (sheet.knowing table).define site outline = made.map fun (name, f, statements) =>
        (sheet.knowing (table.define name f), statements) := by
  have body (table : SymbolTable) (capture : Capture) :
      (sheet.knowing table).readBody site capture = sheet.readBody site capture := rfl
  cases outline with
  | function name parameters capture =>
    have unreserved : ¬(sheet.sequence?.isSome ∧ (name.text = "S" ∨ name.text = "s")) := by
      simp [bare]
    cases given : readParameters name.text parameters.text.toList with
    | error fault =>
      refine ⟨.error (sheet.grammarError fault site), fun table => ?_⟩
      simp only [define, defineFunction, if_neg unreserved, given]
      rfl
    | ok names =>
      refine ⟨(sheet.readBody site capture).map fun formula =>
        (name.text, .user ⟨name.text, names, formula⟩, []), fun table => ?_⟩
      simp only [define, defineFunction, if_neg unreserved, given, body]
      cases sheet.readBody site capture <;> rfl
  | plot capture =>
    refine ⟨(sheet.readBody site capture).map fun formula =>
      ("y", .plot ⟨"y", ["x"], formula⟩, [.plot ⟨"y", ["x"], formula⟩]), fun table => ?_⟩
    simp only [define, plotOf, body]
    cases sheet.readBody site capture <;> rfl
  | sequence => exact absurd rfl plain

theorem rawStatements_knowing (bare : sheet.sequence? = none) (plain : Token.Plain tokens) :
    ∃ made outcome, ∀ table, (sheet.knowing table).rawStatements tokens =
      (sheet.knowing (table.defineAll made), outcome) := by
  have ends := Formula.lineEnd_mem 0 tokens
  fun_induction rawStatements sheet tokens with
  | case1 sheet tokens e failed => exact ⟨[], .error e, fun _ => rawStatements_failed failed⟩
  | case2 sheet tokens formula found stop =>
    exact ⟨[], .ok [.formula formula], fun _ => rawStatements_last found stop⟩
  | case3 sheet tokens formula found rest stop _ _ _ ih =>
    rw [stop] at ends
    obtain ⟨made, outcome, later⟩ := ih bare (plain.mono ends) (Formula.lineEnd_mem 0 rest)
    refine ⟨made, outcome.map (.formula formula :: ·), fun table => ?_⟩
    have found : Formula.chain (sheet.knowing table).source [] tokens = .ok formula := found
    rw [rawStatements_line found stop, later table]
  | case4 sheet tokens formula found site outline rest stop filled =>
    refine ⟨[], .error (sheet.grammarError .unexpectedDefinition site), fun table => ?_⟩
    have found : Formula.chain (sheet.knowing table).source [] tokens = .ok formula := found
    exact rawStatements_unexpected found stop (by simpa using filled)
  | case5 sheet tokens formula found site outline rest stop empty e failed =>
    obtain rfl : formula = [] := by simpa using empty
    rw [stop] at ends
    obtain ⟨-, token, member, -, shape⟩ := ends
    obtain ⟨made, same⟩ := define_knowing bare site (shape ▸ plain token member)
    have refused := (same sheet.symbols).symm.trans failed
    obtain rfl := Outcome.map_eq_error.mp refused
    refine ⟨[], .error e, fun table => ?_⟩
    have found : Formula.chain (sheet.knowing table).source [] tokens = .ok [] := found
    exact rawStatements_undefined found stop (same table)
  | case6 sheet tokens formula found site outline rest stop empty defined statements enters _ _ _
      ih =>
    obtain rfl : formula = [] := by simpa using empty
    rw [stop] at ends
    obtain ⟨within, token, member, -, shape⟩ := ends
    obtain ⟨made, same⟩ := define_knowing bare site (shape ▸ plain token member)
    have done := (same sheet.symbols).symm.trans enters
    obtain ⟨⟨name, f, _⟩, rfl, is⟩ := Outcome.map_eq_ok.mp done
    cases is
    -- The lines after the definition are read knowing what it has entered.
    obtain ⟨made, outcome, later⟩ := ih bare
      (plain.mono (List.Subset.trans (skipSeparator_subset rest) within)) (Formula.lineEnd_mem 0 _)
    refine ⟨(name, f) :: made, outcome.map (statements ++ ·), fun table => ?_⟩
    have found : Formula.chain (sheet.knowing table).source [] tokens = .ok [] := found
    have entered : (sheet.knowing table).define site outline =
        .ok (sheet.knowing (table.define name f), statements) := same table
    rw [rawStatements_define found stop entered, later (table.define name f)]
    rfl

theorem check_bare (bare : sheet.sequence? = none) (statements : List Statement) :
    sheet.check statements = (sheet, do
      statements.forM sheet.checkStatement
      sheet.checkDefinitions) := by
  have sequence : sheet.checkSequence = .ok sheet := by
    unfold checkSequence
    rw [bare]
  unfold check
  rw [sequence]
  cases statements.forM sheet.checkStatement <;> rfl

theorem readTokens_bare {outcome : Except Error (List Statement)}
    (read : sheet.rawStatements tokens = (entered, outcome)) (bare : entered.sequence? = none) :
    sheet.readTokens tokens = (entered, do
      let statements ← outcome
      statements.forM entered.checkStatement
      entered.checkDefinitions
      finishStatements entered.source statements) := by
  unfold readTokens
  rw [read]
  cases outcome with
  | error e => rfl
  | ok statements =>
    simp only [check_bare bare]
    change _ = (entered, do
      statements.forM entered.checkStatement
      entered.checkDefinitions
      finishStatements entered.source statements)
    cases statements.forM entered.checkStatement with
    | error e => rfl
    | ok =>
      change _ = (entered, do
        entered.checkDefinitions
        finishStatements entered.source statements)
      cases entered.checkDefinitions <;> rfl

theorem parse_twice (sheet : Sheet) (bare : sheet.sequence? = none)
    (plain : ∀ tokens ∈ (Token.readAll .statements sheet.source).toExcept.toOption,
      Token.Plain tokens) :
    sheet.parse.1.parse.2 = sheet.parse.2 ∧ sheet.parse.1.Agrees sheet.parse.1.parse.1 ∧
      sheet.parse.1.sequence? = none ∧ sheet.parse.1.parse.1.sequence? = none := by
  cases lexed : (Token.readAll .statements sheet.source).toExcept with
  | error e =>
    have failed : sheet.parse = (sheet, .error e) := by
      unfold parse
      rw [lexed]
    rw [failed, failed]
    exact ⟨rfl, ⟨rfl, .refl _⟩, bare, bare⟩
  | ok tokens =>
    obtain ⟨made, outcome, reads⟩ := rawStatements_knowing bare (plain tokens (by rw [lexed]; rfl))
    have read (table : SymbolTable) := readTokens_bare (reads table) bare
    have parsed (table : SymbolTable) :
        (sheet.knowing table).parse = (sheet.knowing table).readTokens tokens := by
      unfold parse
      rw [lexed]
    have agrees : (sheet.knowing (sheet.symbols.defineAll made)).Agrees
        (sheet.knowing ((sheet.symbols.defineAll made).defineAll made)) :=
      ⟨rfl, SymbolTable.defineAll_again sheet.symbols made⟩
    have first := (parsed sheet.symbols).trans (read sheet.symbols)
    have second := (parsed _).trans (read (sheet.symbols.defineAll made))
    rw [first, second]
    refine ⟨?_, agrees, bare, bare⟩
    simp only [agrees.checkDefinitions, funext agrees.checkStatement]

/-- A sheet that defines no sequence can be read twice: the second reading has the result of the
first, be it an error or not, and leaves every name, the order of the definitions and the absence
of a sequence as they were. -/
theorem parse_again (source : String) (limits : Limits)
    (plain : ∀ tokens ∈ (Token.readAll .statements source).toExcept.toOption,
      Token.Plain tokens) :
    let first := (ofSource source limits).parse
    let second := first.1.parse
    second.2 = first.2 ∧
      (∀ name, second.1.symbols.find? name = first.1.symbols.find? name) ∧
      second.1.symbols.definedNames = first.1.symbols.definedNames ∧
      first.1.sequence? = none ∧ second.1.sequence? = none := by
  obtain ⟨result, agrees, bare, still⟩ := parse_twice (ofSource source limits) rfl plain
  exact ⟨result, agrees.symbols.found, agrees.symbols.names, bare, still⟩

theorem redefined_parse_again :
    (∀ tokens ∈ (Token.readAll .statements "f(x)=x\ny=f(x)\nf(x)=2*x\nf(3)").toExcept.toOption,
        Token.Plain tokens) ∧
      let first := (ofSource "f(x)=x\ny=f(x)\nf(x)=2*x\nf(3)" {}).parse
      let second := first.1.parse
      first.2.toOption.isSome ∧ second.2 = first.2 ∧
        (∀ name, second.1.symbols.find? name = first.1.symbols.find? name) ∧
        second.1.symbols.definedNames = first.1.symbols.definedNames ∧
        second.1.symbols.definedNames = ["f", "y"] := by
  have plain : ∀ tokens ∈
      (Token.readAll .statements "f(x)=x\ny=f(x)\nf(x)=2*x\nf(3)").toExcept.toOption,
      Token.Plain tokens := by decide +kernel
  obtain ⟨result, found, names, -, -⟩ := parse_again "f(x)=x\ny=f(x)\nf(x)=2*x\nf(3)" {} plain
  exact ⟨plain, by decide +kernel, result, found, names, by decide +kernel⟩

end Sheet

end FormulaSheet
