import FormulaSheet.Proofs.Context.Kindred
import FormulaSheet.Proofs.Internal

set_option autoImplicit false

namespace FormulaSheet

namespace Sheet

variable {shared : String → Prop} {sheet sheet' next : Sheet}

section Names

theorem Kindred.constant? (kin : Kindred shared sheet sheet') {name : String}
    (known : shared name) :
    sheet'.symbols.constant? name = sheet.symbols.constant? name := by
  have same := kin.symbols known
  unfold SymbolTable.constant?
  generalize sheet.symbols.find? name = found at same
  generalize sheet'.symbols.find? name = found' at same
  cases same with
  | none => rfl
  | some same => cases same <;> rfl

theorem Kindred.function? (kin : Kindred shared sheet sheet') {name : String}
    (known : shared name) : Option.Rel (Function.Matches (.sharing shared))
      (sheet.symbols.function? name) (sheet'.symbols.function? name) := by
  have same := kin.symbols known
  unfold SymbolTable.function?
  generalize sheet.symbols.find? name = found at same
  generalize sheet'.symbols.find? name = found' at same
  cases same with
  | none => exact .none
  | some same =>
    cases same with
    | constant => exact .none
    | function same => exact .some same

theorem Kindred.progression (kin : Kindred shared sheet sheet') :
    sheet'.checkedSequence?.map Prod.snd = sheet.checkedSequence?.map Prod.snd := by
  have same := kin.sequence
  unfold checkedSequence?
  generalize sheet.sequence? = found at same
  generalize sheet'.sequence? = found' at same
  cases same with
  | none => rfl
  | @some s s' carried =>
    simp only [Option.bind_some, carried.progression]
    cases s.progression? <;> rfl

theorem Kindred.linked (kin : Kindred shared sheet sheet') :
    Linked (.sharing shared) sheet sheet' where
  grammar := fun _ _ => .inl rfl
  naming := fun _ _ => .inl rfl
  arithmetic := by
    intro site site' _ fault left right
    cases fault with
    | divisionByZero => exact .inr ⟨rfl, rfl⟩
    | _ => exact .inl rfl
  internal := fun _ => .inl rfl
  outOfRange := by
    intro e out
    cases e with
    | arithmetic fault => cases fault <;> first | rfl | contradiction
    | grammar | naming | internal => rfl
  like_gap := fun both => both.2.trans both.1.symm
  free_gap := id
  numbers := by
    rw [kin.limits]
    exact fun _ => id
  exponents := by
    rw [kin.limits]
    exact fun _ => id
  range := by rw [kin.limits]
  constants := kin.constant?
  functions := kin.function?
  progression := kin.progression

end Names

section Checks

variable {parameters : List String} {names : Bool}

theorem Kindred.checkArgument (kin : Kindred shared sheet sheet') {argument argument' : Formula}
    (same : Formula.Matches (.sharing shared) argument argument')
    (checked : sheet.checkArgument parameters argument = .ok ()) :
    sheet'.checkArgument parameters argument' = .ok () := by
  cases same with
  | nil => rfl
  | cons first rest =>
    cases rest with
    | cons => cases first <;> rfl
    | nil =>
      cases first with
      | literal | bracket | call | operator => rfl
      | name near text known =>
        rw [checkArgument_name] at checked ⊢
        rw [text, kin.constant? known]
        exact checked

theorem Kindred.checkCall (kin : Kindred shared sheet sheet') {callee callee' : Callee}
    {arguments arguments' : List Formula} (named : callee'.name = callee.name)
    (known : shared callee.name)
    (same : List.Forall₂ (Formula.Matches (.sharing shared)) arguments arguments')
    (checked : sheet.checkCall parameters callee arguments = .ok ()) :
    sheet'.checkCall parameters callee' arguments' = .ok () := by
  obtain ⟨f, found, arity, given⟩ := checkCall_eq_ok.mp checked
  have symbols := kin.symbols known
  rw [found] at symbols
  generalize found' : sheet'.symbols.find? callee.name = symbol' at symbols
  cases symbols with
  | some symbols =>
    cases symbols with
    | @function _ f' alike =>
      rw [checkCall_eq_ok]
      refine ⟨f', named ▸ found', ?_, fun argument' member => ?_⟩
      · rw [← same.length_eq, arity, alike.parameters]
      · obtain ⟨argument, present, matched⟩ := exists_of_forall₂ same member
        exact kin.checkArgument matched (given argument present)

theorem Kindred.checkFormula (kin : Kindred shared sheet sheet') {formula formula' : Formula}
    (same : Formula.Matches (.sharing shared) formula formula')
    (checked : Sheet.checkFormula sheet parameters names formula = .ok ()) :
    Sheet.checkFormula sheet' parameters names formula' = .ok () := by
  induction formula using Formula.nesting_induction generalizing formula' with
  | step formula inBracket inArgument =>
    rw [checkFormula_eq_ok] at checked ⊢
    intro part' member'
    obtain ⟨part, member, matched⟩ := exists_of_forall₂ same member'
    have checked := checked part member
    cases matched with
    | literal | operator => rfl
    | name near text known =>
      rw [checkPart_name] at checked ⊢
      rw [text, kin.contains known]
      exact checked
    | bracket inside =>
      rw [checkPart] at checked ⊢
      exact inBracket _ _ member inside checked
    | call near named kind known given =>
      rw [checkPart_call] at checked ⊢
      refine ⟨kin.checkCall named known given checked.1, fun argument' present' => ?_⟩
      obtain ⟨argument, present, matched⟩ := exists_of_forall₂ given present'
      exact inArgument _ _ member argument present matched (checked.2 argument present)

theorem Kindred.checkStatement (kin : Kindred shared sheet sheet') {statement statement' : Statement}
    (same : statement.Matches (.sharing shared) statement')
    (checked : sheet.checkStatement statement = .ok ()) :
    sheet'.checkStatement statement' = .ok () := by
  cases same with
  | formula same => exact kin.checkFormula same checked
  | @plot definition definition' same =>
    change Sheet.checkFormula sheet' definition'.parameters true definition'.body = .ok ()
    rw [same.parameters]
    exact kin.checkFormula same.body checked

theorem Kindred.checkFunction (kin : Kindred shared sheet sheet') {f f' : Function}
    (same : f.Matches (.sharing shared) f') (checked : sheet.checkFunction f = .ok ()) :
    sheet'.checkFunction f' = .ok () := by
  cases same with
  | user same =>
    exact kin.checkStatement (.plot same) checked
  | plot same => exact kin.checkStatement (.plot same) checked
  | sequence | builtin => rfl

theorem Kindred.checkFunctions (kin : Kindred shared sheet sheet')
    (checked : ∀ f ∈ sheet.symbols.definitions, sheet.checkFunction f = .ok ())
    (own : ∀ name f, ¬shared name → sheet'.symbols.function? name = some f →
      sheet'.checkFunction f = .ok ()) :
    ∀ f ∈ sheet'.symbols.definitions, sheet'.checkFunction f = .ok () := by
  intro f' member
  obtain ⟨name, defined, found⟩ := SymbolTable.mem_definitions.mp member
  by_cases known : shared name
  · have functions := kin.function? known
    rw [found] at functions
    generalize here : sheet.symbols.function? name = f at functions
    cases functions with
    | some same =>
      exact kin.checkFunction same (checked _
        (SymbolTable.mem_definitions.mpr ⟨name, kin.names known defined, here⟩))
  · exact own name f' known found

end Checks

section Recursion

theorem has_call_of_matches {t : Tolerance} {formula formula' : Formula}
    (same : Formula.Matches t formula formula') {callee' : Callee} {arguments' : List Formula}
    (has : formula'.Has (.call callee' arguments')) :
    ∃ callee arguments, formula.Has (.call callee arguments) ∧ callee'.name = callee.name ∧
      t.shared callee.name := by
  induction formula using Formula.nesting_induction generalizing formula' with
  | step formula inBracket inArgument =>
    rcases Formula.has_iff.mp has with member | ⟨opening, inside, member, has⟩ |
      ⟨other, others, member, argument', given, has⟩
    · obtain ⟨part, present, matched⟩ := exists_of_forall₂ same member
      cases matched with
      | call near named kind known given => exact ⟨_, _, .here present, named, known⟩
    · obtain ⟨part, present, matched⟩ := exists_of_forall₂ same member
      cases matched with
      | bracket alike =>
        obtain ⟨callee, arguments, found, named, known⟩ := inBracket _ _ present alike has
        exact ⟨callee, arguments, found.bracket present, named, known⟩
    · obtain ⟨part, present, matched⟩ := exists_of_forall₂ same member
      cases matched with
      | call near named kind known alike =>
        obtain ⟨argument, listed, matched⟩ := exists_of_forall₂ alike given
        obtain ⟨callee, arguments, found, named, known⟩ :=
          inArgument _ _ present argument listed matched has
        exact ⟨callee, arguments, found.argument present listed, named, known⟩

theorem Kindred.reaches (kin : Kindred shared sheet sheet') {definition definition' : Definition}
    (same : definition.Matches (.sharing shared) definition') {callee' : Callee}
    (h : Reaches sheet'.userBody? definition' callee') :
    ∃ callee, callee'.name = callee.name ∧ shared callee.name ∧
      Reaches sheet.userBody? definition callee := by
  induction h generalizing definition with
  | direct has =>
    obtain ⟨_, has⟩ := has
    obtain ⟨callee, arguments, found, named, known⟩ := has_call_of_matches same.body has
    exact ⟨callee, named, known, .direct ⟨arguments, found⟩⟩
  | @through definition' next' callee' target has first _ ih =>
    obtain ⟨_, has⟩ := has
    obtain ⟨callee, arguments, found, named, known⟩ := has_call_of_matches same.body has
    have functions := kin.function? known
    rw [← named, userBody?_eq_some.mp first, named] at functions
    generalize here : sheet.symbols.function? callee.name = f at functions
    cases functions with
    | some alike =>
      cases alike with
      | user alike =>
        obtain ⟨last, named, known, reached⟩ := ih alike
        exact ⟨last, named, known,
          .through ⟨arguments, found⟩ (userBody?_eq_some.mpr here) reached⟩

theorem Kindred.checkSelfCalls (kin : Kindred shared sheet sheet') (coherent : sheet.Coherent)
    (coherent' : sheet'.Coherent) (checked : sheet.checkSelfCalls = .ok ())
    (own : ∀ name definition, ¬shared name → sheet'.body? name = some definition →
      ∀ callee, Reaches sheet'.userBody? definition callee → callee.name ≠ name) :
    sheet'.checkSelfCalls = .ok () := by
  have apart := coherent.checkSelfCalls_eq_ok.mp checked
  rw [coherent'.checkSelfCalls_eq_ok]
  intro definition' body callee' reached
  by_cases known : shared definition'.name
  · have matched : ∃ definition, sheet.body? definition'.name = some definition ∧
        definition.Matches (.sharing shared) definition' := by
      have functions := kin.function? known
      unfold body? at body ⊢
      generalize sheet.symbols.function? definition'.name = f at functions ⊢
      generalize sheet'.symbols.function? definition'.name = f' at functions body
      cases functions with
      | none => contradiction
      | some alike =>
        cases alike with
        | user alike | plot alike =>
          cases body
          exact ⟨_, rfl, alike⟩
        | sequence | builtin => contradiction
    obtain ⟨definition, found, same⟩ := matched
    obtain ⟨callee, named, -, reached⟩ := kin.reaches same reached
    rw [named, same.name]
    exact apart definition (same.name ▸ found) callee reached
  · exact own _ definition' known body callee' reached

end Recursion

end Sheet

end FormulaSheet
