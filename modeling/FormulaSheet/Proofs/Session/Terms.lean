import FormulaSheet.Proofs.Context.Separating
import FormulaSheet.Proofs.Context.Values
import FormulaSheet.Proofs.Session.Sequence

set_option autoImplicit false

namespace FormulaSheet

namespace Sheet

section Bodies

variable {sheet : Sheet}

def Bodiless (sheet : Sheet) : Prop :=
  ∀ name f, sheet.symbols.function? name = some f → f.definition? = none

theorem bodiless_ofSource (source : String) (limits : Limits) :
    (ofSource source limits).Bodiless := by
  intro name f found
  obtain ⟨b, -, rfl⟩ := SymbolTable.function?_withBuiltins found
  rfl

theorem Bodiless.bind (bodiless : sheet.Bodiless) (bound : String) {f : Function}
    (bare : f.definition? = none) :
    Bodiless { sheet with symbols := sheet.symbols.define bound f } :=
  SymbolTable.forall_function?_define bodiless bare

theorem Bodiless.ranked (bodiless : sheet.Bodiless) : sheet.Ranked fun _ => 0 where
  falls := by
    rintro caller definition ⟨callee, -, body⟩
    obtain ⟨f, found, own⟩ := body?_iff.mp body
    rw [bodiless _ _ found] at own
    contradiction
  bounded := fun _ => Nat.zero_le _

theorem Bodiless.definition? (bodiless : sheet.Bodiless) {f : Function}
    (member : f ∈ sheet.symbols.definitions) : f.definition? = none := by
  obtain ⟨name, -, found⟩ := SymbolTable.mem_definitions.mp member
  exact bodiless name f found

theorem Bodiless.checks (bodiless : sheet.Bodiless) {entered : Sheet}
    (sequence : entered.checkSequence = .ok sheet) : Checks entered [] sheet where
  lines := by simp
  sequence := sequence
  functions := by
    intro f member
    rw [checkFunction, bodiless.definition? member]
  selfCalls := by
    refine Outcome.forM_eq_ok.mpr fun f member => ?_
    rw [checkRecursion, bodiless.definition? member]

end Bodies

section Terms

variable {limits : Limits} {text source : String} {value : Float}

/-- A text on one line, with no comma outside of parentheses, that is one argument; on a fresh sheet
it has the value. -/
structure TermOf (limits : Limits) (text : String) (value : Float) : Prop where
  single : ∀ c ∈ text.toList, Text.isLineBreak c = false
  inside : ∀ before after, text.toList = before ++ ',' :: after → Text.balance 0 before ≠ some 0
  reads : ∃ formula, Formula.captured text .arguments ⟨0, text⟩ = .ok [formula] ∧
    (ofSource text limits).evaluate .empty formula = .ok value

theorem termOf_of_values (single : (text.toList.all fun c => !Text.isLineBreak c) = true)
    (inside : ∀ i < text.toList.length, text.toList[i]? = some ',' →
      Text.balance 0 (text.toList.take i) ≠ some 0)
    (values : (Formula.captured text .arguments ⟨0, text⟩).toOption.map
      (fun formulas => formulas.map fun formula =>
        ((ofSource text limits).evaluate .empty formula).toOption) = some [some value]) :
    TermOf limits text value where
  single := by simpa using single
  inside := by
    intro before after same
    rw [same] at inside
    simpa using inside before.length (by simp) (by simp)
  reads := by
    cases read : Formula.captured text .arguments ⟨0, text⟩ with
    | error e =>
      rw [read] at values
      contradiction
    | ok formulas =>
      rw [read] at values
      obtain ⟨formula, rfl, found⟩ := List.map_eq_singleton_iff.mp (Option.some.inj values)
      refine ⟨formula, rfl, ?_⟩
      cases known : (ofSource text limits).evaluate .empty formula with
      | error e =>
        rw [known] at found
        contradiction
      | ok x =>
        rw [known] at found
        cases found
        rfl

-- The sheet that the terms are evaluated on: the sequence has its names, and is not there.
def titled (source : String) (limits : Limits) : Sheet :=
  { ofSource source limits with
    symbols := (SymbolTable.withBuiltins.define "S" .sequence).define "s" .sequence }

theorem bodiless_titled (source : String) (limits : Limits) : (titled source limits).Bodiless :=
  ((bodiless_ofSource source limits).bind "S" (f := .sequence) rfl).bind "s" (f := .sequence) rfl

theorem kindred_titled (text source : String) (limits : Limits) :
    Kindred (fun name => name ≠ "S" ∧ name ≠ "s") (ofSource text limits) (titled source limits) :=
  ((kindred_ofSource _ text source limits).bind_unshared (by simp) .sequence).bind_unshared
    (by simp) .sequence

theorem TermOf.termValue (term : TermOf limits text value) {capture : Capture}
    {gap gap' cs : List Char} (blank : Token.Blank gap) (blank' : Token.Blank gap')
    (written : text.toList = gap ++ cs) (written' : capture.text.toList = gap' ++ cs)
    (there : StandsAt source capture.offset capture.text.toList) (site : Site) :
    (titled source limits).termValue site capture = .ok value ∧ capture.isGiven := by
  obtain ⟨formula, read, found⟩ := term.reads
  obtain ⟨_, read', alike⟩ := captured_indented blank blank' written written' (standsAt_whole text)
    there read
  obtain _ | ⟨matched, ⟨⟩⟩ := alike
  have known (name : String) (bound : SymbolTable.withBuiltins.contains name) :
      name ≠ "S" ∧ name ≠ "s" := by
    constructor <;> rintro rfl <;> exact absurd bound (by decide)
  have found' := (kindred_titled text source limits).evaluate_ok
    (bodiless_ofSource text limits).ranked (bodiless_titled source limits).ranked
    (matches_of_value known found matched) found
  exact ⟨termValue_eq_ok.mpr ⟨_, read', checkFormula_of_value found', found'⟩,
    isGiven_of_captured there read'⟩

theorem progresses_pair {sheet : Sheet} {site : Site} {first second : Capture} {x y : Float}
    (one : sheet.termValue site first = .ok x ∧ first.isGiven)
    (two : sheet.termValue site second = .ok y ∧ second.isGiven) (nonzero : ¬x == 0) :
    Sequence.Progresses { site, first, second, third := none } sheet x y where
  given := by simp [Sequence.given, Sequence.terms, one.2, two.2]
  first := one.1
  second := two.1
  nonzero := nonzero
  third := nofun

end Terms

section Lines

open Token (Blank Cut termed firstTerm secondTerm isTermText)

variable {limits : Limits} {source : String} {gap first second more : List Char}

theorem free_ofSource (source : String) (limits : Limits) :
    ¬((ofSource source limits).sequence?.isSome ∨ (ofSource source limits).symbols.contains "S" ∨
      (ofSource source limits).symbols.contains "s") := by
  have large : ¬SymbolTable.withBuiltins.contains "S" := by decide
  have small : ¬SymbolTable.withBuiltins.contains "s" := by decide
  rintro (present | taken | taken)
  · contradiction
  · exact large taken
  · exact small taken

theorem Entered.steps {sheet next : Sheet} {tokens : List Token} {statements : List Statement}
    (h : Entered sheet tokens next statements) : Steps sheet next := by
  obtain ⟨raw, read, -⟩ := h.rawStatements
  have steps := sheet.rawStatements_steps tokens
  rw [read] at steps
  exact steps

theorem Entered.holds {sheet next : Sheet} {token : Token} {tokens : List Token}
    {statements : List Statement} {first second : Capture} {third : Option Capture}
    (h : Entered sheet (token :: tokens) next statements)
    (shape : token.shape = .definition (.sequence first second third))
    (free : ¬(sheet.sequence?.isSome ∨ sheet.symbols.contains "S" ∨ sheet.symbols.contains "s")) :
    next.Holds { site := token.site, first, second, third } := by
  obtain ⟨others, -, later⟩ := h.of_definition shape (define_iff.mpr (.sequence free))
  exact Holds.steps ⟨none, rfl⟩ later.steps

theorem isTermText_of_plain {cs : List Char} (plain : ',' ∉ cs)
    (unbroken : ∀ c ∈ cs, Text.isLineBreak c = false) : ∀ c ∈ cs, isTermText c := by
  intro c member
  have other : c ≠ ',' := fun same => plain (same ▸ member)
  simp [isTermText, other, unbroken c member]

theorem exists_cut (one : ∀ c ∈ first, isTermText c) (two : ∀ c ∈ second, isTermText c)
    (stop : ∀ c ∈ more.head?, isTermText c = false) :
    ∃ gap cs, Blank gap ∧ first = gap ++ cs ∧ Cut (' ' :: gap) cs second more := by
  have split := List.takeWhile_append_dropWhile (p := Text.isBlank) (l := first)
  have blank : Blank (first.takeWhile Text.isBlank) := List.all_eq_true.mp List.all_takeWhile
  refine ⟨_, _, blank, split.symm, ?_, ?_, ?_, two, stop⟩
  · exact List.forall_mem_cons.mpr ⟨rfl, blank⟩
  · exact fun c member => one c ((List.dropWhile_sublist _).subset member)
  · exact fun c head => Token.refused_of_head?_dropWhile head

theorem balance_of_parse {sheet : Sheet} {statements : List Statement}
    (written : source.toList =
      'S' :: ' ' :: '=' :: ' ' :: (first ++ ',' :: (second ++ ',' :: more)))
    (unbroken : ∀ c ∈ source.toList, Text.isLineBreak c = false)
    (plain : ',' ∉ first) (plain' : ',' ∉ second)
    (parsed : (ofSource source limits).parse = (sheet, .ok statements)) :
    Text.balance 0 first = some 0 ∧ Text.balance 0 second = some 0 := by
  rw [written] at unbroken
  have one : ∀ c ∈ first, isTermText c := isTermText_of_plain plain (by simp_all)
  have two : ∀ c ∈ second, isTermText c := isTermText_of_plain plain' (by simp_all)
  have stop : ∀ c ∈ (',' :: more).head?, isTermText c = false := by
    rintro _ ⟨⟩
    rfl
  obtain ⟨gap, cs, blank, rfl, cut⟩ := exists_cut one two stop
  have same : source.toList = termed (' ' :: gap) cs second (',' :: more) := by
    rw [written]
    simp [termed]
  obtain ⟨third, consumed, rest, found⟩ := cut.match?_longSequence 0
  obtain ⟨tokens, entered, reads, lines, checks⟩ := parse_eq_ok_iff.mp parsed
  rw [ofSource, same] at reads
  cases reads with
  | blank => contradiction
  | token filled matched =>
    cases found.symm.trans matched
    obtain ⟨progression?, present⟩ := lines.holds rfl (free_ofSource source limits)
    obtain ⟨x, y, progresses, -⟩ := (checkSequence_iff present).mp checks.sequence
    have balanced {site : Site} {capture : Capture} {z : Float}
        (there : StandsAt source capture.offset capture.text.toList)
        (known : termValue { entered with sequence? := none } site capture = .ok z) :
        Text.balance 0 capture.text.toList = some 0 := by
      obtain ⟨formula, read, -⟩ := termValue_eq_ok.mp known
      exact balance_of_captured there (lines.source ▸ read)
    have plain : ∀ c ∈ gap, c ≠ '(' ∧ c ≠ ')' :=
      fun c member => Token.isBlank_plain (blank c member)
    rw [Text.balance_append, Text.balance_of_forall plain]
    have left := balanced (Token.stands_firstTerm same) progresses.first
    have right := balanced (Token.stands_secondTerm same) progresses.second
    rw [Token.toList_firstTerm] at left
    rw [Token.toList_secondTerm] at right
    exact ⟨left, right⟩

theorem parse_defined {site : Site} {one two : Capture} {x y : Float}
    (reads : Token.Reads .statements .origin source.toList
      [⟨site, .definition (.sequence one two none)⟩])
    (value : (titled source limits).termValue site one = .ok x ∧ one.isGiven)
    (value' : (titled source limits).termValue site two = .ok y ∧ two.isGiven)
    (nonzero : ¬x == 0) :
    ∃ sheet, (ofSource source limits).parse = (sheet, .ok []) ∧
      sheet.checkedSequence?.map Prod.snd = some ⟨x, y / x⟩ := by
  let s : Sequence := { site, first := one, second := two, third := none }
  let entered : Sheet := { titled source limits with sequence? := some s }
  let next : Sheet :=
    { titled source limits with sequence? := some { s with progression? := some ⟨x, y / x⟩ } }
  have lines : Entered (ofSource source limits) [⟨site, .definition (.sequence one two none)⟩]
      entered ([] ++ []) :=
    .definition rfl (define_iff.mpr (.sequence (free_ofSource source limits))) (.done _)
  have checked : entered.checkSequence = .ok next :=
    (checkSequence_iff rfl).mpr ⟨x, y, progresses_pair value value' nonzero, rfl⟩
  have bodiless : next.Bodiless := bodiless_titled source limits
  exact ⟨next, parse_eq_ok_iff.mpr ⟨_, entered, reads, lines, bodiless.checks checked⟩, rfl⟩

theorem parse_pair {e1 e2 : String} {v1 v2 : Float} (one : TermOf limits e1 v1)
    (two : TermOf limits e2 v2) (nonzero : ¬v1 == 0)
    (written : source.toList = 'S' :: ' ' :: '=' :: ' ' :: (e1.toList ++ ',' :: ' ' :: e2.toList))
    (plain : ',' ∉ e1.toList) (plain' : ',' ∉ e2.toList) :
    ∃ sheet, (ofSource source limits).parse = (sheet, .ok []) ∧
      sheet.checkedSequence?.map Prod.snd = some ⟨v1, v2 / v1⟩ := by
  have first := isTermText_of_plain plain one.single
  have second : ∀ c ∈ ' ' :: e2.toList, isTermText c :=
    List.forall_mem_cons.mpr ⟨rfl, isTermText_of_plain plain' two.single⟩
  have stop : ∀ c ∈ ([] : List Char).head?, isTermText c = false := nofun
  obtain ⟨gap, cs, blank, split, cut⟩ := exists_cut first second stop
  have same : source.toList = termed (' ' :: gap) cs (' ' :: e2.toList) [] := by
    rw [written, split]
    simp [termed]
  have reads := cut.reads .origin
  rw [← same] at reads
  have empty : Blank [] := List.forall_mem_nil _
  have space : Blank [' '] := List.forall_mem_singleton.mpr rfl
  exact parse_defined reads
    (one.termValue blank empty split (Token.toList_firstTerm ..) (Token.stands_firstTerm same) _)
    (two.termValue empty space rfl (Token.toList_secondTerm ..) (Token.stands_secondTerm same) _)
    nonzero

/-- A source that defines a sequence of two terms gives it their values, the ratio being that of the
two, just when neither holds a comma: a comma ends a term also in the parentheses of a call. -/
theorem parse_pair_iff (limits : Limits) (e1 e2 : String) (v1 v2 : Float)
    (one : TermOf limits e1 v1) (two : TermOf limits e2 v2) (nonzero : ¬v1 == 0) :
    (∃ sheet statements,
      (ofSource ("S = " ++ e1 ++ ", " ++ e2) limits).parse = (sheet, .ok statements) ∧
        sheet.checkedSequence?.map Prod.snd = some ⟨v1, v2 / v1⟩) ↔
      ',' ∉ e1.toList ∧ ',' ∉ e2.toList := by
  have written : ("S = " ++ e1 ++ ", " ++ e2).toList =
      'S' :: ' ' :: '=' :: ' ' :: (e1.toList ++ ',' :: ' ' :: e2.toList) := by
    simp
  generalize "S = " ++ e1 ++ ", " ++ e2 = source at written ⊢
  constructor
  · rintro ⟨sheet, statements, parsed, -⟩
    have unbroken : ∀ c ∈ source.toList, Text.isLineBreak c = false := by
      rw [written]
      simp only [List.forall_mem_cons, List.forall_mem_append]
      exact ⟨rfl, rfl, rfl, rfl, one.single, rfl, rfl, two.single⟩
    have plain : ',' ∉ e1.toList := by
      intro member
      obtain ⟨before, after, same, fresh⟩ := List.eq_append_cons_of_mem member
      have later : ',' ∈ after ++ ',' :: ' ' :: e2.toList := by simp
      obtain ⟨between, rest, same', fresh'⟩ := List.eq_append_cons_of_mem later
      have cut : source.toList =
          'S' :: ' ' :: '=' :: ' ' :: (before ++ ',' :: (between ++ ',' :: rest)) := by
        rw [written, same, List.append_assoc, List.cons_append, same']
      exact one.inside before after same (balance_of_parse cut unbroken fresh fresh' parsed).1
    refine ⟨plain, fun member => ?_⟩
    obtain ⟨before, after, same, fresh⟩ := List.eq_append_cons_of_mem member
    have cut : source.toList =
        'S' :: ' ' :: '=' :: ' ' :: (e1.toList ++ ',' :: ((' ' :: before) ++ ',' :: after)) := by
      rw [written, same, List.cons_append]
    have fresh' : ',' ∉ ' ' :: before := by simp [fresh]
    have balanced := (balance_of_parse cut unbroken plain fresh' parsed).2
    rw [Text.balance_plain (by decide) (by decide)] at balanced
    exact two.inside before after same balanced
  · rintro ⟨plain, plain'⟩
    obtain ⟨sheet, parsed, known⟩ := parse_pair one two nonzero written plain plain'
    exact ⟨sheet, [], parsed, known⟩

theorem parse_pair_iff_products :
    TermOf {} "2(1+2)" 6 ∧ TermOf {} "(9-3)/4" 1.5 ∧ ¬(6 : Float) == 0 ∧
      ∃ sheet statements,
        (ofSource ("S = " ++ "2(1+2)" ++ ", " ++ "(9-3)/4") {}).parse = (sheet, .ok statements) ∧
          sheet.checkedSequence?.map Prod.snd = some ⟨6, 1.5 / 6⟩ := by
  have one : TermOf {} "2(1+2)" 6 :=
    termOf_of_values (by decide) (by decide) (by decide +kernel)
  have two : TermOf {} "(9-3)/4" 1.5 :=
    termOf_of_values (by decide) (by decide) (by decide +kernel)
  have nonzero : ¬(6 : Float) == 0 := by decide +kernel
  exact ⟨one, two, nonzero,
    (parse_pair_iff {} "2(1+2)" "(9-3)/4" 6 1.5 one two nonzero).mpr (by decide)⟩

-- The comma belongs to the call, and ends the term all the same.
theorem nested_comma_refused :
    ∃ v1, TermOf {} "rad(180,)" v1 ∧ TermOf {} "2" 2 ∧ (¬v1 == 0) ∧
      ∀ sheet statements,
        (ofSource ("S = " ++ "rad(180,)" ++ ", " ++ "2") {}).parse ≠ (sheet, .ok statements) := by
  refine ⟨Builtin.radians 180, termOf_of_values (by decide) (by decide) (by decide +kernel),
    termOf_of_values (by decide) (by decide) (by decide +kernel), by decide +kernel, ?_⟩
  intro sheet statements parsed
  have failed :
      (ofSource ("S = " ++ "rad(180,)" ++ ", " ++ "2") {}).parse.2.toOption.isSome = false := by
    decide +kernel
  rw [parsed] at failed
  contradiction

end Lines

end Sheet

end FormulaSheet
