import FormulaSheet.Proofs.Grammar.Building
import FormulaSheet.Proofs.Reachable

set_option autoImplicit false

namespace FormulaSheet

def Statement.body : Statement → Formula
  | .formula parts => parts
  | .plot drawn => drawn.body

namespace Sheet

variable {sheet entered next : Sheet} {raw statements : List Statement}

-- The definitions lead to `entered`, with `raw` as its lines; the check leads on to `next`.
structure Passed (sheet entered next : Sheet) (raw statements : List Statement) : Prop where
  defined : ∃ tokens, (Token.readAll .statements sheet.source).toExcept = .ok tokens ∧
    sheet.rawStatements tokens = (entered, .ok raw)
  lines : ∀ statement ∈ raw, entered.checkStatement statement = .ok ()
  sequence : entered.checkSequence = .ok next
  functions : ∀ f ∈ next.symbols.definitions, next.checkFunction f = .ok ()
  selfCalls : next.checkSelfCalls = .ok ()
  finished : finishStatements next.source raw = .ok statements

theorem check_eq_ok (h : entered.check raw = (next, .ok ())) :
    (∀ statement ∈ raw, entered.checkStatement statement = .ok ()) ∧
      entered.checkSequence = .ok next ∧
      (∀ f ∈ next.symbols.definitions, next.checkFunction f = .ok ()) ∧
      next.checkSelfCalls = .ok () := by
  unfold check at h
  split at h
  · cases h
  next checked passed =>
    obtain ⟨_, lines, sequence⟩ := Outcome.bind_eq_ok.mp passed
    obtain ⟨rfl, rest⟩ := Prod.mk.inj h
    obtain ⟨_, functions, selfCalls⟩ := Outcome.bind_eq_ok.mp rest
    exact ⟨Outcome.forM_eq_ok.mp lines, sequence, Outcome.forM_eq_ok.mp functions, selfCalls⟩

theorem parse_eq_ok (h : sheet.parse = (next, .ok statements)) :
    ∃ entered raw, Passed sheet entered next raw statements := by
  unfold parse at h
  split at h
  · cases h
  next tokens read =>
    unfold readTokens at h
    split at h
    · cases h
    next entered raw defined =>
      split at h
      · cases h
      next checked passed =>
        obtain ⟨rfl, finished⟩ := Prod.mk.inj h
        obtain ⟨lines, sequence, functions, selfCalls⟩ := check_eq_ok passed
        exact ⟨entered, raw, ⟨tokens, read, defined⟩, lines, sequence, functions, selfCalls, finished⟩

inductive Finished (source : String) (raw : List Statement) : Statement → Prop
  | formula {formula finished : Formula} : .formula formula ∈ raw → formula ≠ [] →
      formula.finish source = .ok finished → Finished source raw (.formula finished)
  | plot {definition : Definition} : .plot definition ∈ raw → Finished source raw (.plot definition)

theorem Finished.cons {source : String} {first statement : Statement}
    (h : Finished source raw statement) : Finished source (first :: raw) statement := by
  cases h with
  | formula present nonempty done => exact .formula (List.mem_cons_of_mem _ present) nonempty done
  | plot present => exact .plot (List.mem_cons_of_mem _ present)

inductive Raw (source : String) (tokens : List Token) : Statement → Prop
  | formula {line : List Token} {formula : Formula} : line ⊆ tokens →
      Formula.chain source [] line = .ok formula → Raw source tokens (.formula formula)
  | plot {body : Capture} {formula : Formula} :
      Formula.captured source .statements body = .ok [formula] →
        Raw source tokens (.plot ⟨"y", ["x"], formula⟩)

theorem Raw.mono {source : String} {tokens rest : List Token} {statement : Statement}
    (h : Raw source rest statement) (within : rest ⊆ tokens) : Raw source tokens statement := by
  cases h with
  | formula subset built => exact .formula (List.Subset.trans subset within) built
  | plot read => exact .plot read

theorem define_raw {site : Site} {outline : Outline} (tokens : List Token)
    (h : sheet.define site outline = .ok (next, statements)) :
    ∀ statement ∈ statements, Raw sheet.source tokens statement := by
  cases define_iff.mp h with
  | function | sequence => simp
  | plot read => exact List.forall_mem_singleton.mpr (.plot read)

theorem rawStatements_raw {tokens : List Token}
    (h : sheet.rawStatements tokens = (next, .ok raw)) :
    ∀ statement ∈ raw, Raw sheet.source tokens statement := by
  have ends := Formula.lineEnd_mem 0 tokens
  fun_induction rawStatements sheet tokens generalizing raw with
  | case1 | case4 | case5 => cases h
  | case2 sheet tokens formula found stop =>
    cases h
    exact List.forall_mem_singleton.mpr (.formula (List.Subset.refl _) found)
  | case3 sheet tokens formula found rest stop next others read ih =>
    rw [stop] at ends
    obtain ⟨rfl, mapped⟩ := Prod.mk.inj h
    obtain ⟨others, rfl, rfl⟩ := Outcome.map_eq_ok.mp mapped
    refine List.forall_mem_cons.mpr ⟨.formula (List.Subset.refl _) found, fun statement member => ?_⟩
    exact (ih read (Formula.lineEnd_mem 0 rest) statement member).mono ends
  | case6 sheet tokens formula found site outline rest stop empty defined entered done next others
      read ih =>
    rw [stop] at ends
    obtain ⟨rfl, mapped⟩ := Prod.mk.inj h
    obtain ⟨others, rfl, rfl⟩ := Outcome.map_eq_ok.mp mapped
    refine List.forall_mem_append.mpr ⟨define_raw tokens done, fun statement member => ?_⟩
    have later := ih read (Formula.lineEnd_mem 0 _) statement member
    rw [define_source done] at later
    exact later.mono (List.Subset.trans (skipSeparator_subset rest) ends.1)

theorem finishStatements_mem {source : String}
    (h : finishStatements source raw = .ok statements) {statement : Statement}
    (member : statement ∈ statements) : Finished source raw statement := by
  fun_induction finishStatements source raw generalizing statements with
  | case1 =>
    cases h
    contradiction
  | case2 rest ih => exact (ih h member).cons
  | case3 formula rest nonempty ih =>
    obtain ⟨finished, done, h⟩ := Outcome.bind_eq_ok.mp h
    obtain ⟨others, read, h⟩ := Outcome.bind_eq_ok.mp h
    cases h
    rcases List.mem_cons.mp member with rfl | member
    · exact .formula List.mem_cons_self nonempty done
    · exact (ih read member).cons
  | case4 definition rest ih =>
    obtain ⟨others, read, h⟩ := Outcome.bind_eq_ok.mp h
    cases h
    rcases List.mem_cons.mp member with rfl | member
    · exact .plot List.mem_cons_self
    · exact (ih read member).cons

theorem outputs_error {plots : Nat} {e : Error} (h : sheet.outputs plots statements = .error e) :
    ∃ statement ∈ statements, ∃ number, sheet.output number statement = .error e := by
  induction statements generalizing plots with
  | nil => contradiction
  | cons statement rest ih =>
    rcases Outcome.bind_eq_error.mp h with failed | ⟨output, -, h⟩
    · exact ⟨statement, List.mem_cons_self, _, failed⟩
    rcases Outcome.bind_eq_error.mp h with failed | ⟨outputs, -, h⟩
    · obtain ⟨other, member, failed⟩ := ih failed
      exact ⟨other, List.mem_cons_of_mem _ member, failed⟩
    · contradiction

theorem outputs_mem {plots : Nat} {outputs : List Output}
    (h : sheet.outputs plots statements = .ok outputs) {output : Output}
    (member : output ∈ outputs) :
    ∃ statement ∈ statements, ∃ number, sheet.output number statement = .ok output := by
  induction statements generalizing plots outputs with
  | nil =>
    cases h
    contradiction
  | cons statement rest ih =>
    obtain ⟨first, done, h⟩ := Outcome.bind_eq_ok.mp h
    obtain ⟨others, later, h⟩ := Outcome.bind_eq_ok.mp h
    cases h
    rcases List.mem_cons.mp member with rfl | member
    · exact ⟨statement, List.mem_cons_self, _, done⟩
    · obtain ⟨other, present, found⟩ := ih later member
      exact ⟨other, List.mem_cons_of_mem _ present, found⟩

theorem runAll_eq_ok {outputs : List Output} : sheet.runAll.2 = .ok outputs ↔
    ∃ next statements, sheet.parse = (next, .ok statements) ∧
      next.outputs 0 statements = .ok outputs := by
  unfold runAll
  rcases sheet.parse with ⟨next, outcome⟩
  constructor
  · intro h
    obtain ⟨statements, rfl, h⟩ := Outcome.bind_eq_ok.mp h
    exact ⟨next, statements, rfl, h⟩
  · rintro ⟨_, statements, same, h⟩
    cases same
    exact h

theorem runAll_eq_error {e : Error} (h : sheet.runAll.2 = .error e) :
    sheet.parse.2 = .error e ∨
      ∃ next statements, sheet.parse = (next, .ok statements) ∧
        ∃ statement ∈ statements, ∃ number, next.output number statement = .error e := by
  unfold runAll at h
  rcases read : sheet.parse with ⟨next, outcome⟩
  rw [read] at h
  rcases Outcome.bind_eq_error.mp h with failed | ⟨statements, rfl, failed⟩
  · exact .inl failed
  · exact .inr ⟨next, statements, rfl, outputs_error failed⟩

theorem eq_ok_of_isSome {α : Type} {read : Sheet × Except Error α}
    (h : read.2.toOption.isSome) : ∃ next a, read = (next, .ok a) := by
  obtain ⟨next, _ | a⟩ := read
  · contradiction
  · exact ⟨next, a, rfl⟩

theorem Passed.symbols (passed : Passed sheet entered next raw statements) :
    next.symbols = entered.symbols := by
  rcases checkSequence_eq_ok passed.sequence with ⟨-, rfl⟩ | ⟨s, progression, -, rfl⟩
  · rfl
  · rfl

theorem reachable_of_parse {source : String} {limits : Limits}
    {outcome : Except Error (List Statement)}
    (parsed : (ofSource source limits).parse = (sheet, outcome)) : sheet.Reachable := by
  have steps := (ofSource source limits).parse_steps
  rw [parsed] at steps
  exact (reachable_ofSource source limits).steps steps

end Sheet

end FormulaSheet
