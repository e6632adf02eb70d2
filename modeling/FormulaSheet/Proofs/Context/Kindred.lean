import FormulaSheet.Proofs.Context.Lines
import FormulaSheet.Proofs.Loosening
import FormulaSheet.Proofs.Termination

set_option autoImplicit false

namespace FormulaSheet

inductive Symbol.Matches (t : Tolerance) : Symbol → Symbol → Prop
  | constant (value : Float) : Symbol.Matches t (.constant value) (.constant value)
  | function {f f' : Function} : f.Matches t f' → Symbol.Matches t (.function f) (.function f')

inductive Statement.Matches (t : Tolerance) : Statement → Statement → Prop
  | formula {formula formula' : Formula} : Formula.Matches t formula formula' →
      Statement.Matches t (.formula formula) (.formula formula')
  | plot {definition definition' : Definition} : definition.Matches t definition' →
      Statement.Matches t (.plot definition) (.plot definition')

structure Sequence.Carried (shared : String → Prop) (source source' : String)
    (s s' : Sequence) : Prop where
  first : s.first.Carried shared source source' s'.first
  second : s.second.Carried shared source source' s'.second
  third : Option.Rel (Capture.Carried shared source source') s.third s'.third
  progression : s'.progression? = s.progression?

namespace Sheet

structure Kindred (shared : String → Prop) (sheet sheet' : Sheet) : Prop where
  limits : sheet'.limits = sheet.limits
  symbols : ∀ {name}, shared name → Option.Rel (Symbol.Matches (.sharing shared))
    (sheet.symbols.find? name) (sheet'.symbols.find? name)
  names : ∀ {name}, shared name → name ∈ sheet'.symbols.definedNames →
    name ∈ sheet.symbols.definedNames
  sequence : Option.Rel (Sequence.Carried shared sheet.source sheet'.source) sheet.sequence?
    sheet'.sequence?

section Definitions

variable {shared : String → Prop} {sheet sheet' next : Sheet}

theorem kindred_ofSource (shared : String → Prop) (source source' : String) (limits : Limits) :
    Kindred shared (ofSource source limits) (ofSource source' limits) where
  limits := rfl
  symbols := by
    intro name _
    change Option.Rel _ (SymbolTable.withBuiltins.find? name) (SymbolTable.withBuiltins.find? name)
    cases found : SymbolTable.withBuiltins.find? name with
    | none => exact .none
    | some symbol =>
      cases symbol with
      | constant value => exact .some (.constant value)
      | function f =>
        have given : SymbolTable.withBuiltins.function? name = some f := by
          simp [SymbolTable.function?, found]
        obtain ⟨b, -, rfl⟩ := SymbolTable.function?_withBuiltins given
        exact .some (.function (.builtin b))
  names := fun _ => id
  sequence := .none

theorem Kindred.bind (kin : Kindred shared sheet sheet') (name : String) {f f' : Function}
    (same : f.Matches (.sharing shared) f') :
    Kindred shared { sheet with symbols := sheet.symbols.define name f }
      { sheet' with symbols := sheet'.symbols.define name f' } where
  limits := kin.limits
  symbols := by
    intro other known
    simp only [SymbolTable.find?_define]
    by_cases own : other = name
    · rw [if_pos own, if_pos own]
      exact .some (.function same)
    · rw [if_neg own, if_neg own]
      exact kin.symbols known
  names := by
    intro other known member
    rw [SymbolTable.mem_definedNames_define] at member ⊢
    exact member.imp id (kin.names known)
  sequence := kin.sequence

theorem Kindred.bind_unshared (kin : Kindred shared sheet sheet') {name : String}
    (unshared : ¬shared name) (f : Function) :
    Kindred shared sheet { sheet' with symbols := sheet'.symbols.define name f } where
  limits := kin.limits
  symbols := by
    intro other known
    have apart : other ≠ name := fun same => unshared (same ▸ known)
    simp only [SymbolTable.find?_define, if_neg apart]
    exact kin.symbols known
  names := by
    intro other known member
    rcases SymbolTable.mem_definedNames_define.mp member with rfl | member
    · exact absurd known unshared
    · exact kin.names known member
  sequence := kin.sequence

theorem Kindred.contains (kin : Kindred shared sheet sheet') {name : String}
    (known : shared name) : sheet'.symbols.contains name = sheet.symbols.contains name := by
  have same := kin.symbols known
  unfold SymbolTable.contains
  generalize sheet.symbols.find? name = found at same
  generalize sheet'.symbols.find? name = found' at same
  cases same <;> rfl

theorem Kindred.isSome_sequence (kin : Kindred shared sheet sheet') :
    sheet'.sequence?.isSome = sheet.sequence?.isSome := by
  have same := kin.sequence
  generalize sheet.sequence? = found at same
  generalize sheet'.sequence? = found' at same
  cases same <;> rfl

section Reading

variable (small : shared "s") (large : shared "S")

include small in
theorem body_carried {source source' : String} {body body' : Capture}
    (carried : body.Carried shared source source' body') {formula : Formula}
    (read : Formula.captured source .statements body = .ok [formula]) :
    ∃ formula', Formula.captured source' .statements body' = .ok [formula'] ∧
      Formula.Matches (.sharing shared) formula formula' := by
  obtain ⟨formulas, read', same⟩ := captured_carried small carried read
  cases same with
  | cons first rest =>
    cases rest
    exact ⟨_, read', first⟩

include small large in
theorem Kindred.define (kin : Kindred shared sheet sheet') {token token' : Token}
    (carried : token.Carried shared sheet.source sheet'.source token') {outline : Outline}
    (shape : token.shape = .definition outline) {defined : List Statement}
    (entered : sheet.define token.site outline = .ok (next, defined)) :
    ∃ outline' next' defined', token'.shape = .definition outline' ∧
      sheet'.define token'.site outline' = .ok (next', defined') ∧ Kindred shared next next' ∧
      List.Forall₂ (Statement.Matches (.sharing shared)) defined defined' := by
  have moved := carried.shape
  have shares := carried.shares.captures
  generalize token'.site = site'
  generalize token'.shape = shape' at moved
  rw [shape] at moved shares
  have whole {capture capture' : Capture} (member : capture ∈ outline.captures)
      (moved : capture.Moved sheet.source sheet'.source capture') :
      capture.Carried shared sheet.source sheet'.source capture' := ⟨moved, shares capture member⟩
  cases moved with
  | @function name _ _ _ _ _ named listed written =>
    cases define_iff.mp entered with
    | @function _ _ _ names formula free given read =>
      obtain ⟨formula', read', same⟩ :=
        body_carried small (whole (by simp [Outline.captures]) written) read
      have matched : Definition.Matches (.sharing shared) ⟨name.text, names, formula⟩
          ⟨name.text, names, formula'⟩ := ⟨rfl, rfl, same⟩
      rw [← kin.isSome_sequence, ← named.text] at free
      rw [← named.text, ← listed.text] at given
      refine ⟨_, _, [], rfl, define_iff.mpr (.function free given read'), ?_, .nil⟩
      rw [named.text]
      exact kin.bind name.text (.user matched)
  | plot written =>
    cases define_iff.mp entered with
    | @plot _ formula read =>
      obtain ⟨formula', read', same⟩ :=
        body_carried small (whole (by simp [Outline.captures]) written) read
      have matched : Definition.Matches (.sharing shared) ⟨"y", ["x"], formula⟩
          ⟨"y", ["x"], formula'⟩ := ⟨rfl, rfl, same⟩
      exact ⟨_, _, _, rfl, define_iff.mpr (.plot read'), kin.bind "y" (.plot matched),
        .cons (.plot matched) .nil⟩
  | @sequence first first' second second' third third' one two three =>
    cases define_iff.mp entered with
    | sequence free =>
      have last : Option.Rel (Capture.Carried shared sheet.source sheet'.source) third third' := by
        cases three with
        | none => exact .none
        | some three => exact .some (whole (by simp [Outline.captures]) three)
      have bound := (kin.bind "S" .sequence).bind "s" .sequence
      rw [← kin.isSome_sequence, ← kin.contains large, ← kin.contains small] at free
      refine ⟨_, _, [], rfl, define_iff.mpr (.sequence free), ?_, .nil⟩
      exact ⟨bound.limits, bound.symbols, bound.names, .some ⟨whole (by simp [Outline.captures]) one,
        whole (by simp [Outline.captures]) two, last, rfl⟩⟩
  | plain bare =>
    cases outline <;> contradiction

theorem Line.carried (small : shared "s") {source source' : String} {line line' : List Token}
    {formula : Formula} (h : Line source line formula)
    (carried : List.Forall₂ (Token.Carried shared source source') line line') :
    ∃ formula', Line source' line' formula' ∧ Formula.Matches (.sharing shared) formula formula' := by
  obtain ⟨formulas, read, same⟩ :=
    (building_carried shared small source source').2 _ _ h.read _ carried
  have ends := lineEnd_carried carried 0
  rw [h.unbroken] at ends
  generalize stop : Formula.lineEnd 0 line' = ending at ends
  cases ends
  cases same with
  | cons first rest =>
    cases rest
    exact ⟨_, ⟨read, stop⟩, first⟩

theorem skipSeparator_carried {source source' : String} {tokens tokens' : List Token}
    (h : List.Forall₂ (Token.Carried shared source source') tokens tokens') :
    List.Forall₂ (Token.Carried shared source source') (skipSeparator tokens)
      (skipSeparator tokens') := by
  cases h with
  | nil => exact .nil
  | @cons token token' tokens tokens' first rest =>
    obtain ⟨site, shape⟩ := token
    obtain ⟨site', shape'⟩ := token'
    have moved := first.shape
    simp only at moved
    cases moved with
    | function | plot | sequence | call | query => exact .cons first rest
    | plain bare =>
      cases shape with
      | separator => exact rest
      | definition | call | query | name | number | operator | leftParen | rightParen | equals =>
        exact .cons first rest

include small large in
theorem Entered.carried {tokens tokens' : List Token} {statements : List Statement}
    (h : Entered sheet tokens next statements) (kin : Kindred shared sheet sheet')
    (carried : List.Forall₂ (Token.Carried shared sheet.source sheet'.source) tokens tokens') :
    ∃ next' statements', Entered sheet' tokens' next' statements' ∧ Kindred shared next next' ∧
      List.Forall₂ (Statement.Matches (.sharing shared)) statements statements' := by
  induction h generalizing sheet' tokens' with
  | done =>
    cases carried
    exact ⟨sheet', [], .done sheet', kin, .nil⟩
  | blank shape _ ih =>
    cases carried with
    | cons first rest =>
      obtain ⟨next', statements', entered, kin, same⟩ := ih kin rest
      have moved := first.shape.eq_of_plain (by rw [shape]; rfl)
      exact ⟨next', statements', .blank (moved.trans shape) entered, kin, same⟩
  | definition shape entered _ ih =>
    cases carried with
    | cons first rest =>
      obtain ⟨outline', middle', defined', shape', entered', kin, own⟩ :=
        kin.define small large first shape entered
      have later := skipSeparator_carried rest
      rw [← define_source entered, ← define_source entered'] at later
      obtain ⟨next', statements', others, kin, same⟩ := ih kin later
      exact ⟨next', defined' ++ statements', .definition shape' entered' others, kin,
        List.rel_append own same⟩
  | last held =>
    obtain ⟨formula', held', same⟩ := Line.carried small held carried
    exact ⟨sheet', _, .last held', kin, .cons (.formula same) .nil⟩
  | line held shape _ ih =>
    obtain ⟨line', after', rfl, before, after⟩ := forall₂_append_left carried
    obtain ⟨formula', held', own⟩ := Line.carried small held before
    cases after with
    | cons first rest =>
      obtain ⟨next', statements', entered, kin, same⟩ := ih kin rest
      have moved := first.shape.eq_of_plain (by rw [shape]; rfl)
      exact ⟨next', _, .line held' (moved.trans shape) entered, kin, .cons (.formula own) same⟩

end Reading

end Definitions

end Sheet

end FormulaSheet
