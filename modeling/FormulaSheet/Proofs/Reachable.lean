import FormulaSheet.Proofs.Outcome
import FormulaSheet.Sheet.Run
import Mathlib.Logic.Relation

set_option autoImplicit false

namespace FormulaSheet.Sheet

inductive Step : Sheet → Sheet → Prop
  | define {sheet next : Sheet} {site : Site} {outline : Outline} {statements : List Statement} :
      sheet.define site outline = .ok (next, statements) → Step sheet next
  | check (sheet : Sheet) (statements : List Statement) : Step sheet (sheet.check statements).1
  | limits (sheet : Sheet) (limits : Limits) : Step sheet { sheet with limits }

abbrev Steps : Sheet → Sheet → Prop :=
  Relation.ReflTransGen Step

def Reachable (sheet : Sheet) : Prop :=
  ∃ source limits, Steps (.ofSource source limits) sheet

section Definitions

variable {sheet next : Sheet} {site : Site} {statements : List Statement}

theorem readBody_eq_ok {body : Capture} {formula : Formula} :
    sheet.readBody site body = .ok formula ↔
      Formula.captured sheet.source .statements body = .ok [formula] := by
  unfold readBody
  rw [Outcome.bind_eq_ok]
  constructor
  · rintro ⟨formulas, read, h⟩
    split at h
    · cases h
      exact read
    · contradiction
    · contradiction
  · intro read
    exact ⟨[formula], read, rfl⟩

inductive Defined (sheet : Sheet) (site : Site) : Outline → Sheet → List Statement → Prop
  | function {name parameters body : Capture} {names : List String} {formula : Formula}
      (free : ¬(sheet.sequence?.isSome ∧ (name.text = "S" ∨ name.text = "s")))
      (given : readParameters name.text parameters.text.toList = .ok names)
      (read : Formula.captured sheet.source .statements body = .ok [formula]) :
      Defined sheet site (.function name parameters body)
        { sheet with
          symbols := sheet.symbols.define name.text (.user ⟨name.text, names, formula⟩) } []
  | plot {body : Capture} {formula : Formula}
      (read : Formula.captured sheet.source .statements body = .ok [formula]) :
      Defined sheet site (.plot body)
        { sheet with symbols := sheet.symbols.define "y" (.plot ⟨"y", ["x"], formula⟩) }
        [.plot ⟨"y", ["x"], formula⟩]
  | sequence {first second : Capture} {third : Option Capture}
      (free : ¬(sheet.sequence?.isSome ∨ sheet.symbols.contains "S" ∨
        sheet.symbols.contains "s")) :
      Defined sheet site (.sequence first second third)
        { sheet with
          symbols := (sheet.symbols.define "S" .sequence).define "s" .sequence
          sequence? := some { site, first, second, third } } []

theorem define_iff {outline : Outline} :
    sheet.define site outline = .ok (next, statements) ↔
      Defined sheet site outline next statements := by
  constructor
  · intro h
    cases outline with
    | function name parameters body =>
      obtain ⟨entered, done, rest⟩ := Outcome.bind_eq_ok.mp h
      cases rest
      unfold defineFunction at done
      split at done
      · contradiction
      next free =>
        obtain ⟨names, given, done⟩ := Outcome.bind_eq_ok.mp done
        obtain ⟨formula, read, done⟩ := Outcome.bind_eq_ok.mp done
        cases done
        exact .function free (Outcome.mapError_eq_ok.mp given) (readBody_eq_ok.mp read)
    | plot body =>
      obtain ⟨definition, done, rest⟩ := Outcome.bind_eq_ok.mp h
      cases rest
      obtain ⟨formula, read, done⟩ := Outcome.bind_eq_ok.mp done
      cases done
      exact .plot (readBody_eq_ok.mp read)
    | sequence first second third =>
      obtain ⟨entered, done, rest⟩ := Outcome.bind_eq_ok.mp h
      cases rest
      unfold defineSequence at done
      split at done
      · contradiction
      next free =>
        cases done
        exact .sequence free
  · intro defined
    cases defined with
    | function free given read =>
      refine Outcome.bind_eq_ok.mpr ⟨_, ?_, rfl⟩
      rw [defineFunction, if_neg free]
      refine Outcome.bind_eq_ok.mpr ⟨_, Outcome.mapError_eq_ok.mpr given, ?_⟩
      exact Outcome.bind_eq_ok.mpr ⟨_, readBody_eq_ok.mpr read, rfl⟩
    | plot read =>
      refine Outcome.bind_eq_ok.mpr ⟨⟨"y", ["x"], _⟩, ?_, rfl⟩
      exact Outcome.bind_eq_ok.mpr ⟨_, readBody_eq_ok.mpr read, rfl⟩
    | sequence free =>
      refine Outcome.bind_eq_ok.mpr ⟨_, ?_, rfl⟩
      rw [defineSequence, if_neg free]

theorem define_source {outline : Outline}
    (h : sheet.define site outline = .ok (next, statements)) : next.source = sheet.source := by
  cases define_iff.mp h <;> rfl

end Definitions

section Equations

variable {sheet : Sheet} {tokens : List Token} {formula : Formula}

theorem rawStatements_failed {e : Error}
    (failed : Formula.chain sheet.source [] tokens = .error e) :
    sheet.rawStatements tokens = (sheet, .error e) := by
  rw [rawStatements]
  simp only [failed]

theorem rawStatements_last (found : Formula.chain sheet.source [] tokens = .ok formula)
    (stop : Formula.lineEnd 0 tokens = .input) :
    sheet.rawStatements tokens = (sheet, .ok [.formula formula]) := by
  rw [rawStatements]
  simp only [found]
  split <;> simp_all

theorem rawStatements_line {rest : List Token}
    (found : Formula.chain sheet.source [] tokens = .ok formula)
    (stop : Formula.lineEnd 0 tokens = .separator rest) :
    sheet.rawStatements tokens = ((sheet.rawStatements rest).1,
      (sheet.rawStatements rest).2.map (.formula formula :: ·)) := by
  rw [rawStatements]
  simp only [found]
  split <;> simp_all

variable {site : Site} {outline : Outline} {rest : List Token}

theorem rawStatements_unexpected (found : Formula.chain sheet.source [] tokens = .ok formula)
    (stop : Formula.lineEnd 0 tokens = .definition site outline rest) (filled : formula ≠ []) :
    sheet.rawStatements tokens =
      (sheet, .error (sheet.grammarError .unexpectedDefinition site)) := by
  rw [rawStatements]
  simp only [found]
  split <;> simp_all

theorem rawStatements_undefined (found : Formula.chain sheet.source [] tokens = .ok [])
    (stop : Formula.lineEnd 0 tokens = .definition site outline rest) {e : Error}
    (failed : sheet.define site outline = .error e) :
    sheet.rawStatements tokens = (sheet, .error e) := by
  rw [rawStatements]
  simp only [found]
  split <;> simp_all

theorem rawStatements_define (found : Formula.chain sheet.source [] tokens = .ok [])
    (stop : Formula.lineEnd 0 tokens = .definition site outline rest) {next : Sheet}
    {defined : List Statement} (entered : sheet.define site outline = .ok (next, defined)) :
    sheet.rawStatements tokens = ((next.rawStatements (skipSeparator rest)).1,
      (next.rawStatements (skipSeparator rest)).2.map (defined ++ ·)) := by
  rw [rawStatements]
  simp only [found]
  split <;> simp_all

theorem skipSeparator_subset (tokens : List Token) : skipSeparator tokens ⊆ tokens := by
  cases tokens with
  | nil => exact List.Subset.refl _
  | cons token rest =>
    simp only [skipSeparator]
    split
    · exact List.subset_cons_self token rest
    · exact List.Subset.refl _

end Equations

theorem rawStatements_source (sheet : Sheet) (tokens : List Token) :
    (sheet.rawStatements tokens).1.source = sheet.source := by
  fun_induction rawStatements sheet tokens with
  | case1 | case2 | case4 | case5 => rfl
  | case3 sheet tokens formula found rest stop next others read ih =>
    rw [read] at ih
    exact ih
  | case6 sheet tokens formula found site outline rest stop empty defined statements entered next
      others read ih =>
    rw [read] at ih
    exact ih.trans (define_source entered)

theorem rawStatements_steps (sheet : Sheet) (tokens : List Token) :
    Steps sheet (sheet.rawStatements tokens).1 := by
  fun_induction rawStatements sheet tokens with
  | case1 | case2 | case4 | case5 => exact .refl
  | case3 sheet tokens formula found rest stop next statements read ih =>
    rw [read] at ih
    exact ih
  | case6 sheet tokens formula found site outline rest stop empty defined statements entered next
      others read ih =>
    rw [read] at ih
    exact .head (.define entered) ih

theorem readTokens_steps (sheet : Sheet) (tokens : List Token) :
    Steps sheet (sheet.readTokens tokens).1 := by
  have read := sheet.rawStatements_steps tokens
  unfold readTokens
  split
  next failed =>
    rw [failed] at read
    exact read
  next entered statements found =>
    rw [found] at read
    have checked := read.tail (.check entered statements)
    split
    next failed =>
      rw [failed] at checked
      exact checked
    next done =>
      rw [done] at checked
      exact checked

theorem parse_steps (sheet : Sheet) : Steps sheet sheet.parse.1 := by
  unfold parse
  split
  · exact .refl
  · exact sheet.readTokens_steps _

theorem runAll_steps (sheet : Sheet) : Steps sheet sheet.runAll.1 :=
  sheet.parse_steps

theorem Reachable.steps {sheet next : Sheet} (reachable : sheet.Reachable)
    (h : Steps sheet next) : next.Reachable := by
  obtain ⟨source, limits, before⟩ := reachable
  exact ⟨source, limits, before.trans h⟩

theorem reachable_ofSource (source : String) (limits : Limits) :
    (ofSource source limits).Reachable :=
  ⟨source, limits, .refl⟩

theorem steps_preserve {P : Sheet → Prop} (kept : ∀ sheet next, P sheet → Step sheet next → P next)
    {sheet next : Sheet} (holds : P sheet) (steps : Steps sheet next) : P next := by
  induction steps with
  | refl => exact holds
  | tail _ step ih => exact kept _ _ ih step

theorem Reachable.invariant {P : Sheet → Prop}
    (initial : ∀ source limits, P (ofSource source limits))
    (kept : ∀ sheet next, P sheet → Step sheet next → P next) {sheet : Sheet}
    (reachable : sheet.Reachable) : P sheet := by
  obtain ⟨source, limits, steps⟩ := reachable
  exact steps_preserve kept (initial source limits) steps

-- Definitions are bound to their own names, plots to one name only, and builtins are never new.
def Admits (sheet : Sheet) (name : String) : Function → Prop
  | .user definition => definition.name = name ∧ name ∈ sheet.symbols.definedNames
  | .plot definition => definition.name = name ∧ name = "y" ∧ name ∈ sheet.symbols.definedNames
  | .sequence => sheet.sequence?.isSome
  | .builtin b => b ∈ Builtin.all

def Coherent (sheet : Sheet) : Prop :=
  ∀ name f, sheet.symbols.function? name = some f → sheet.Admits name f

end FormulaSheet.Sheet

namespace FormulaSheet.SymbolTable

theorem function?_define (table : SymbolTable) (name other : String) (f : Function) :
    (table.define name f).function? other =
      if other = name then some f else table.function? other := by
  simp only [function?, find?_define]
  by_cases same : other = name <;> simp [same]

theorem forall_function?_define {P : String → Function → Prop} {table : SymbolTable}
    (all : ∀ other g, table.function? other = some g → P other g) {name : String} {f : Function}
    (own : P name f) : ∀ other g, (table.define name f).function? other = some g → P other g := by
  intro other g found
  rw [function?_define] at found
  split at found
  next same =>
    cases found
    exact same ▸ own
  · exact all other g found

theorem mem_definedNames_define {table : SymbolTable} {name other : String} {f : Function} :
    other ∈ (table.define name f).definedNames ↔ other = name ∨ other ∈ table.definedNames := by
  by_cases known : name ∈ table.definedNames
  · have own : other = name → other ∈ table.definedNames := fun same => same ▸ known
    simpa [define, SymbolTable.insert, known] using own
  · simp [define, SymbolTable.insert, known, or_comm]

theorem mem_insertBuiltins {builtins : List Builtin} {table : SymbolTable}
    {binding : String × Symbol}
    (h : binding ∈ (builtins.foldl
      (fun table b => table.insert b.name (.function (.builtin b))) table).bindings) :
    binding ∈ table.bindings ∨ ∃ b ∈ builtins, binding.2 = .function (.builtin b) := by
  induction builtins generalizing table with
  | nil => exact .inl h
  | cons b rest ih =>
    rcases ih h with member | ⟨other, member, same⟩
    · rcases List.mem_cons.mp member with rfl | member
      · exact .inr ⟨b, List.mem_cons_self, rfl⟩
      · exact .inl member
    · exact .inr ⟨other, List.mem_cons_of_mem _ member, same⟩

theorem mem_withBuiltins {binding : String × Symbol} (h : binding ∈ withBuiltins.bindings) :
    (∃ b ∈ Builtin.all, binding.2 = .function (.builtin b)) ∨
      ∃ constant ∈ Builtin.constants, binding.2 = .constant constant.2 := by
  simp only [withBuiltins, Builtin.constants, SymbolTable.insert, List.foldl, List.mem_cons] at h
  rcases h with rfl | rfl | rfl | member
  · exact .inr ⟨("E", Builtin.e), by simp [Builtin.constants], rfl⟩
  · exact .inr ⟨("pi", Builtin.pi), by simp [Builtin.constants], rfl⟩
  · exact .inr ⟨("π", Builtin.pi), by simp [Builtin.constants], rfl⟩
  · rcases mem_insertBuiltins member with member | known
    · contradiction
    · exact .inl known

theorem find?_withBuiltins {name : String} {symbol : Symbol}
    (h : withBuiltins.find? name = some symbol) :
    (∃ b ∈ Builtin.all, symbol = .function (.builtin b)) ∨
      ∃ constant ∈ Builtin.constants, symbol = .constant constant.2 := by
  obtain ⟨before, after, same, -⟩ := List.lookup_eq_some_iff.mp h
  exact mem_withBuiltins (by simp [same] : (name, symbol) ∈ withBuiltins.bindings)

theorem function?_withBuiltins {name : String} {f : Function}
    (h : withBuiltins.function? name = some f) : ∃ b ∈ Builtin.all, f = .builtin b := by
  unfold function? at h
  split at h
  next found =>
    cases h
    rcases find?_withBuiltins found with ⟨b, member, same⟩ | ⟨constant, -, same⟩
    · exact ⟨b, member, Symbol.function.inj same⟩
    · contradiction
  · contradiction

theorem constant?_withBuiltins {name : String} {x : Float}
    (h : withBuiltins.constant? name = some x) : ∃ constant ∈ Builtin.constants, x = constant.2 := by
  unfold constant? at h
  split at h
  next found =>
    cases h
    rcases find?_withBuiltins found with ⟨b, -, same⟩ | ⟨constant, member, same⟩
    · contradiction
    · exact ⟨constant, member, Symbol.constant.inj same⟩
  · contradiction

theorem mem_definitions {table : SymbolTable} {f : Function} :
    f ∈ table.definitions ↔ ∃ name ∈ table.definedNames, table.function? name = some f := by
  simp [definitions, List.mem_filterMap]

end FormulaSheet.SymbolTable

namespace FormulaSheet.Sheet

theorem coherent_ofSource (source : String) (limits : Limits) :
    (ofSource source limits).Coherent := by
  intro name f found
  obtain ⟨b, member, rfl⟩ := SymbolTable.function?_withBuiltins found
  exact member

theorem Admits.mono {sheet next : Sheet} {name : String} {f : Function}
    (h : sheet.Admits name f)
    (names : sheet.symbols.definedNames ⊆ next.symbols.definedNames)
    (sequence : sheet.sequence?.isSome → next.sequence?.isSome) : next.Admits name f := by
  cases f with
  | user => exact ⟨h.1, names h.2⟩
  | plot => exact ⟨h.1, h.2.1, names h.2.2⟩
  | sequence => exact sequence h
  | builtin => exact h

theorem Coherent.bind {sheet : Sheet} (coherent : sheet.Coherent) {name : String} {f : Function}
    {sequence? : Option Sequence} (kept : sheet.sequence?.isSome → sequence?.isSome)
    (admits : Admits { sheet with symbols := sheet.symbols.define name f, sequence? } name f) :
    Coherent { sheet with symbols := sheet.symbols.define name f, sequence? } := by
  refine SymbolTable.forall_function?_define (fun other g found => ?_) admits
  exact (coherent other g found).mono
    (fun known member => SymbolTable.mem_definedNames_define.mpr (.inr member)) kept

theorem checkSequence_eq_ok {sheet next : Sheet} (h : sheet.checkSequence = .ok next) :
    sheet.sequence? = none ∧ next = sheet ∨
      ∃ s progression, sheet.sequence? = some s ∧
        next = { sheet with sequence? := some { s with progression? := some progression } } := by
  unfold checkSequence at h
  split at h
  next missing =>
    cases h
    exact .inl ⟨missing, rfl⟩
  next s found =>
    obtain ⟨progression, -, h⟩ := Outcome.map_eq_ok.mp h
    exact .inr ⟨s, progression, found, h.symm⟩

theorem checkSequence_source {sheet next : Sheet} (h : sheet.checkSequence = .ok next) :
    next.source = sheet.source := by
  rcases checkSequence_eq_ok h with ⟨-, rfl⟩ | ⟨s, progression, -, rfl⟩
  · rfl
  · rfl

theorem check_eq (sheet : Sheet) (statements : List Statement) :
    (sheet.check statements).1 = sheet ∨
      ∃ s progression, sheet.sequence? = some s ∧
        (sheet.check statements).1 =
          { sheet with sequence? := some { s with progression? := some progression } } := by
  unfold check
  split
  · exact .inl rfl
  next checked done =>
    obtain ⟨_, -, done⟩ := Outcome.bind_eq_ok.mp done
    rcases checkSequence_eq_ok done with ⟨-, rfl⟩ | made
    · exact .inl rfl
    · exact .inr made

theorem check_symbols (sheet : Sheet) (statements : List Statement) :
    (sheet.check statements).1.symbols = sheet.symbols := by
  rcases sheet.check_eq statements with same | ⟨s, progression, -, same⟩ <;> rw [same]

theorem check_source (sheet : Sheet) (statements : List Statement) :
    (sheet.check statements).1.source = sheet.source := by
  rcases sheet.check_eq statements with same | ⟨s, progression, -, same⟩ <;> rw [same]

theorem Coherent.define {sheet next : Sheet} (coherent : sheet.Coherent) {site : Site}
    {outline : Outline} {statements : List Statement}
    (h : sheet.define site outline = .ok (next, statements)) : next.Coherent := by
  have known (table : SymbolTable) (name : String) (f : Function) :
      name ∈ (table.define name f).definedNames :=
    SymbolTable.mem_definedNames_define.mpr (.inl rfl)
  cases define_iff.mp h with
  | function => exact coherent.bind id ⟨rfl, known _ _ _⟩
  | plot => exact coherent.bind id ⟨rfl, rfl, known _ _ _⟩
  | @sequence first second third =>
    have named : Coherent { sheet with
        symbols := sheet.symbols.define "S" .sequence
        sequence? := some { site, first, second, third } } :=
      coherent.bind (fun _ => rfl) rfl
    exact named.bind (fun _ => rfl) rfl

theorem Coherent.check {sheet : Sheet} (coherent : sheet.Coherent) (statements : List Statement) :
    (sheet.check statements).1.Coherent := by
  rcases sheet.check_eq statements with same | ⟨s, progression, -, same⟩
  · rw [same]
    exact coherent
  · rw [same]
    intro name f found
    exact (coherent name f found).mono (fun _ => id) fun _ => rfl

theorem Coherent.step {sheet next : Sheet} (coherent : sheet.Coherent) (h : Step sheet next) :
    next.Coherent := by
  cases h with
  | define entered => exact coherent.define entered
  | check statements => exact coherent.check statements
  | limits limits => exact coherent

theorem Reachable.coherent {sheet : Sheet} (reachable : sheet.Reachable) : sheet.Coherent :=
  reachable.invariant coherent_ofSource fun _ _ coherent step => coherent.step step

section Origins

inductive Written (source : String) : Function → Prop
  | user {name : String} {parameters : List String} {body : Capture} {formula : Formula} :
      Formula.captured source .statements body = .ok [formula] →
        Written source (.user ⟨name, parameters, formula⟩)
  | plot {body : Capture} {formula : Formula} :
      Formula.captured source .statements body = .ok [formula] →
        Written source (.plot ⟨"y", ["x"], formula⟩)
  | sequence : Written source .sequence
  | builtin {b : Builtin} : b ∈ Builtin.all → Written source (.builtin b)

def AllWritten (sheet : Sheet) : Prop :=
  ∀ name f, sheet.symbols.function? name = some f → Written sheet.source f

variable {sheet next : Sheet}

theorem Reachable.forall_functions {P : String → String → Function → Prop}
    (reachable : sheet.Reachable)
    (given : ∀ source name f, SymbolTable.withBuiltins.function? name = some f → P source name f)
    (user : ∀ source (name parameters body : Capture) names formula,
      readParameters name.text parameters.text.toList = .ok names →
        Formula.captured source .statements body = .ok [formula] →
          P source name.text (.user ⟨name.text, names, formula⟩))
    (plot : ∀ source body formula, Formula.captured source .statements body = .ok [formula] →
      P source "y" (.plot ⟨"y", ["x"], formula⟩))
    (sequence : ∀ source name, P source name .sequence) :
    ∀ name f, sheet.symbols.function? name = some f → P sheet.source name f := by
  refine reachable.invariant
    (P := fun sheet => ∀ name f, sheet.symbols.function? name = some f → P sheet.source name f)
    (fun source _ => given source) fun sheet next all step => ?_
  cases step with
  | define entered =>
    cases define_iff.mp entered with
    | function _ given read =>
      exact SymbolTable.forall_function?_define all (user _ _ _ _ _ _ given read)
    | plot read => exact SymbolTable.forall_function?_define all (plot _ _ _ read)
    | sequence =>
      have named := SymbolTable.forall_function?_define all (sequence sheet.source "S")
      exact SymbolTable.forall_function?_define named (sequence _ "s")
  | check statements =>
    rw [check_symbols, check_source]
    exact all
  | limits limits => exact all

theorem Reachable.allWritten (reachable : sheet.Reachable) : sheet.AllWritten := by
  refine reachable.forall_functions (P := fun source _ f => Written source f)
    ?given ?user ?plot ?sequence
  case given =>
    intro source name f found
    obtain ⟨b, member, rfl⟩ := SymbolTable.function?_withBuiltins found
    exact .builtin member
  case user => exact fun _ _ _ _ _ _ _ read => .user read
  case plot => exact fun _ _ _ read => .plot read
  case sequence => exact fun _ _ => .sequence

end Origins

end FormulaSheet.Sheet
