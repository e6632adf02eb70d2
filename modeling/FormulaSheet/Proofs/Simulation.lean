import FormulaSheet.Proofs.Evaluation
import Mathlib.Data.List.Forall2

/-!
Two sheets that agree on the names they share find the same values for formulas that differ in
their places only. The second sheet may have wider limits: then it follows the first as long as no
number there is out of range.
-/

set_option autoImplicit false

namespace FormulaSheet

def ArithmeticFault.isOutOfRange : ArithmeticFault → Bool
  | leftTooLarge | rightTooLarge | exponentTooLarge .. => true
  | _ => false

def Error.isOutOfRange : Error → Bool
  | arithmetic fault .. => fault.isOutOfRange
  | _ => false

/-- How far two runs may differ: which sites stand for each other, and which errors; after which
errors of the first run the second may do anything; and which names both know. -/
structure Tolerance where
  near : Site → Site → Prop
  like : Error → Error → Prop
  free : Error → Prop
  shared : String → Prop

section Outcomes

variable {t : Tolerance} {α β γ δ : Type}

def Tolerance.Allows (t : Tolerance) (e e' : Error) : Prop :=
  t.free e ∨ t.like e e'

inductive Follows (t : Tolerance) (same : α → β → Prop) : Except Error α → Except Error β → Prop
  | ok {a : α} {b : β} : same a b → Follows t same (.ok a) (.ok b)
  | like {e e' : Error} : t.like e e' → Follows t same (.error e) (.error e')
  | free {e : Error} {y : Except Error β} : t.free e → Follows t same (.error e) y

variable {same : α → β → Prop} {same' : γ → δ → Prop} {x : Except Error α} {y : Except Error β}

theorem Follows.fail {e e' : Error} (h : t.Allows e e') :
    Follows t same (.error e) (.error e') :=
  h.elim .free .like

theorem Follows.bind {f : α → Except Error γ} {g : β → Except Error δ} (first : Follows t same x y)
    (later : ∀ a b, x = .ok a → y = .ok b → same a b → Follows t same' (f a) (g b)) :
    Follows t same' (x >>= f) (y >>= g) := by
  cases first with
  | ok h => exact later _ _ rfl rfl h
  | like h => exact .like h
  | free h => exact .free h

theorem Follows.map {f : α → γ} {g : β → δ} (h : Follows t same x y)
    (kept : ∀ a b, same a b → same' (f a) (g b)) : Follows t same' (x.map f) (y.map g) := by
  cases h with
  | ok h => exact .ok (kept _ _ h)
  | like h => exact .like h
  | free h => exact .free h

theorem Follows.mapM {f : α → Except Error γ} {g : β → Except Error δ} {xs : List α} {ys : List β}
    (each : List.Forall₂ (fun a b => Follows t same' (f a) (g b)) xs ys) :
    Follows t (List.Forall₂ same') (xs.mapM f) (ys.mapM g) := by
  induction each with
  | nil => exact .ok .nil
  | cons first _ ih =>
    rw [List.mapM_cons, List.mapM_cons]
    exact first.bind fun _ _ _ _ head => ih.bind fun _ _ _ _ tail => .ok (.cons head tail)

theorem Follows.of_ok {a : α} (h : Follows t same (.ok a) y) : ∃ b, y = .ok b ∧ same a b := by
  cases h with
  | ok same => exact ⟨_, rfl, same⟩

end Outcomes

section Formulas

inductive Part.Matches (t : Tolerance) : Part → Part → Prop
  | literal (site site' : Site) (value : Float) :
      Part.Matches t (.literal site value) (.literal site' value)
  | name {site site' : Site} : t.near site site' → site'.text = site.text → t.shared site.text →
      Part.Matches t (.name site) (.name site')
  | operator {o o' : Operator} : t.near o.site o'.site → o'.operation = o.operation →
      Part.Matches t (.operator o) (.operator o')
  | bracket {opening opening' : Site} {inside inside' : Formula} :
      List.Forall₂ (Part.Matches t) inside inside' →
        Part.Matches t (.bracket opening inside) (.bracket opening' inside')
  | call {callee callee' : Callee} {arguments arguments' : List Formula} :
      t.near callee.site callee'.site → callee'.name = callee.name → callee'.kind = callee.kind →
        t.shared callee.name → List.Forall₂ (List.Forall₂ (Part.Matches t)) arguments arguments' →
          Part.Matches t (.call callee arguments) (.call callee' arguments')

abbrev Formula.Matches (t : Tolerance) : Formula → Formula → Prop :=
  List.Forall₂ (Part.Matches t)

structure Definition.Matches (t : Tolerance) (definition definition' : Definition) : Prop where
  name : definition'.name = definition.name
  parameters : definition'.parameters = definition.parameters
  body : Formula.Matches t definition.body definition'.body

inductive Function.Matches (t : Tolerance) : Function → Function → Prop
  | user {definition definition' : Definition} : definition.Matches t definition' →
      Function.Matches t (.user definition) (.user definition')
  | plot {definition definition' : Definition} : definition.Matches t definition' →
      Function.Matches t (.plot definition) (.plot definition')
  | sequence : Function.Matches t .sequence .sequence
  | builtin (b : Builtin) : Function.Matches t (.builtin b) (.builtin b)

variable {t : Tolerance}

theorem Part.Matches.isValue {part part' : Part} (h : part.Matches t part') :
    part'.isValue = part.isValue := by
  cases h <;> rfl

theorem Function.Matches.parameters {f f' : Function} (h : f.Matches t f') :
    f'.parameters = f.parameters := by
  cases h with
  | user h | plot h => exact h.parameters
  | sequence | builtin => rfl

end Formulas

namespace Sheet

variable {t : Tolerance} {sheet sheet' : Sheet}

structure Linked (t : Tolerance) (sheet sheet' : Sheet) : Prop where
  grammar : ∀ {site site'}, t.near site site' → ∀ fault,
    t.Allows (sheet.grammarError fault site) (sheet'.grammarError fault site')
  naming : ∀ {site site'}, t.near site site' → ∀ fault,
    t.Allows (sheet.namingError fault site) (sheet'.namingError fault site')
  arithmetic : ∀ {site site'}, t.near site site' → ∀ fault left right,
    t.Allows (.arithmetic fault (site.locate sheet.source) left right)
      (.arithmetic fault (site'.locate sheet'.source) left right)
  internal : ∀ fault, t.Allows (.internal fault) (.internal fault)
  outOfRange : ∀ {e : Error}, e.isOutOfRange → t.free e
  like_gap : ∀ {e e'}, t.like e e' → e'.isDivisionByZero = e.isDivisionByZero
  free_gap : ∀ {e}, t.free e → e.isDivisionByZero = false
  numbers : ∀ x : Float, x > sheet'.limits.maxNumber → x > sheet.limits.maxNumber
  exponents : ∀ x : Float, x > sheet'.limits.maxExponent → x > sheet.limits.maxExponent
  range : sheet'.limits.plotRange = sheet.limits.plotRange
  constants : ∀ {name}, t.shared name →
    sheet'.symbols.constant? name = sheet.symbols.constant? name
  functions : ∀ {name}, t.shared name →
    Option.Rel (Function.Matches t) (sheet.symbols.function? name) (sheet'.symbols.function? name)
  progression : sheet'.checkedSequence?.map Prod.snd = sheet.checkedSequence?.map Prod.snd

structure Aligned (t : Tolerance) (sheet sheet' : Sheet) : Prop where
  grammar : ∀ {site site'}, t.near site site' → ∀ fault,
    t.Allows (sheet.grammarError fault site) (sheet'.grammarError fault site')
  internal : ∀ fault, t.Allows (.internal fault) (.internal fault)
  apply : ∀ {o o' : Operator}, t.near o.site o'.site → o'.operation = o.operation →
    ∀ left right, Follows t (· = ·) (o.evaluate sheet.limits sheet.source left right)
      (o'.evaluate sheet'.limits sheet'.source left right)

section Reduction

inductive ItemMatches (t : Tolerance) : Item → Item → Prop
  | value (x : Float) : ItemMatches t (.value x) (.value x)
  | operator {o o' : Operator} : t.near o.site o'.site → o'.operation = o.operation →
      ItemMatches t (.operator o) (.operator o')

theorem Linked.operation (link : Linked t sheet sheet') (operation : Operation)
    (left right : Float) :
    operation.evaluate sheet'.limits left right = operation.evaluate sheet.limits left right ∨
      ∃ fault, fault.isOutOfRange ∧ operation.evaluate sheet.limits left right = .error fault := by
  unfold Operation.evaluate
  by_cases large : left.abs > sheet.limits.maxNumber
  · exact .inr ⟨.leftTooLarge, rfl, by rw [if_pos large]⟩
  by_cases larger : right.abs > sheet.limits.maxNumber
  · exact .inr ⟨.rightTooLarge, rfl, by rw [if_neg large, if_pos larger]⟩
  by_cases power : operation = .power ∧ right > sheet.limits.maxExponent
  · exact .inr ⟨.exponentTooLarge sheet.limits.maxExponent right, rfl,
      by rw [if_neg large, if_neg larger, if_pos power]⟩
  · left
    rw [if_neg large, if_neg larger, if_neg power, if_neg (large ∘ link.numbers _),
      if_neg (larger ∘ link.numbers _), if_neg (power ∘ And.imp_right (link.exponents _))]

theorem Linked.apply (link : Linked t sheet sheet') {o o' : Operator} (near : t.near o.site o'.site)
    (same : o'.operation = o.operation) (left right : Float) :
    Follows t (· = ·) (o.evaluate sheet.limits sheet.source left right)
      (o'.evaluate sheet'.limits sheet'.source left right) := by
  unfold Operator.evaluate
  rw [same]
  rcases link.operation o.operation left right with equal | ⟨fault, out, failed⟩
  · rw [equal]
    cases o.operation.evaluate sheet.limits left right with
    | ok value => exact .ok rfl
    | error fault => exact .fail (link.arithmetic near fault left right)
  · rw [failed]
    exact .free (link.outOfRange out)

theorem Linked.aligned (link : Linked t sheet sheet') : Aligned t sheet sheet' :=
  ⟨link.grammar, link.internal, link.apply⟩

theorem ItemMatches.of_value {x : Float} {items items' : List Item}
    (h : List.Forall₂ (ItemMatches t) (.value x :: items) items') :
    ∃ rest, items' = .value x :: rest ∧ List.Forall₂ (ItemMatches t) items rest := by
  cases h with
  | cons first rest =>
    cases first
    exact ⟨_, rfl, rest⟩

theorem ItemMatches.of_operator {o : Operator} {items items' : List Item}
    (h : List.Forall₂ (ItemMatches t) (.operator o :: items) items') :
    ∃ o' rest, items' = .operator o' :: rest ∧ t.near o.site o'.site ∧
      o'.operation = o.operation ∧ List.Forall₂ (ItemMatches t) items rest := by
  cases h with
  | cons first rest =>
    cases first with
    | operator near same => exact ⟨_, _, rfl, near, same, rest⟩

theorem Aligned.sweep (aligned : Aligned t sheet sheet') (operation : Operation)
    {done done' items items' : List Item} (passed : List.Forall₂ (ItemMatches t) done done')
    (listed : List.Forall₂ (ItemMatches t) items items') :
    Follows t (List.Forall₂ (ItemMatches t))
      (Item.sweep sheet.limits sheet.source operation done items)
      (Item.sweep sheet'.limits sheet'.source operation done' items') := by
  fun_induction Item.sweep sheet.limits sheet.source operation done items
    generalizing done' items' with
  | case1 done =>
    cases listed
    exact .ok (List.forall₂_reverse_iff.mpr passed)
  | case2 done v rest ih =>
    obtain ⟨rest', rfl, later⟩ := ItemMatches.of_value listed
    simp only [Item.sweep]
    exact ih (.cons (.value v) passed) later
  | case3 o here left done right rest ih =>
    obtain ⟨o', _, rfl, near, same, after⟩ := ItemMatches.of_operator listed
    obtain ⟨done', rfl, before⟩ := ItemMatches.of_value passed
    obtain ⟨rest', rfl, later⟩ := ItemMatches.of_value after
    simp only [Item.sweep, same.trans here, if_true]
    refine (aligned.apply near same left right).bind fun value _ _ _ equal => ?_
    cases equal
    exact ih value (.cons (.value value) before) later
  | case4 o rest here left done missing =>
    obtain ⟨o', rest', rfl, near, same, after⟩ := ItemMatches.of_operator listed
    obtain ⟨done', rfl, -⟩ := ItemMatches.of_value passed
    -- An operand is missing here and there alike, since the items match one for one.
    cases after with
    | nil =>
      simp only [Item.sweep, same.trans here, if_true, ← here]
      exact .fail (aligned.grammar near _)
    | cons second later =>
      cases second with
      | value x => exact absurd rfl (missing x _)
      | operator =>
        simp only [Item.sweep, same.trans here, if_true, ← here]
        exact .fail (aligned.grammar near _)
  | case5 done o rest here unled =>
    obtain ⟨o', rest', rfl, near, same, -⟩ := ItemMatches.of_operator listed
    cases passed with
    | nil =>
      simp only [Item.sweep, same.trans here, if_true]
      exact .fail (aligned.grammar near _)
    | cons last before =>
      cases last with
      | value x => exact absurd rfl (unled x _)
      | operator =>
        simp only [Item.sweep, same.trans here, if_true]
        exact .fail (aligned.grammar near _)
  | case6 done o rest other ih =>
    obtain ⟨o', rest', rfl, near, same, later⟩ := ItemMatches.of_operator listed
    have passes : Item.sweep sheet'.limits sheet'.source operation done' (.operator o' :: rest') =
        Item.sweep sheet'.limits sheet'.source operation (.operator o' :: done') rest' := by
      rw [Item.sweep.eq_def]
      exact if_neg (same ▸ other)
    rw [passes]
    exact ih (.cons (.operator near same) passed) later

theorem Aligned.reduce (aligned : Aligned t sheet sheet') {items items' : List Item}
    (listed : List.Forall₂ (ItemMatches t) items items') :
    Follows t (· = ·) (Item.reduce sheet.limits sheet.source items)
      (Item.reduce sheet'.limits sheet'.source items') := by
  have sweeps (levels : List Operation) {items items' : List Item}
      (listed : List.Forall₂ (ItemMatches t) items items') :
      Follows t (List.Forall₂ (ItemMatches t))
        (levels.foldlM (fun items o => Item.sweep sheet.limits sheet.source o [] items) items)
        (levels.foldlM (fun items o => Item.sweep sheet'.limits sheet'.source o [] items)
          items') := by
    induction levels generalizing items items' with
    | nil => exact .ok listed
    | cons operation looser ih =>
      rw [List.foldlM_cons, List.foldlM_cons]
      exact (aligned.sweep operation .nil listed).bind fun _ _ _ _ swept => ih swept
  refine (sweeps Operation.precedence listed).bind fun reduced reduced' _ _ same => ?_
  have count := same.length_eq
  cases same with
  | nil => exact .fail (aligned.internal _)
  | cons first rest =>
    cases rest with
    | nil =>
      cases first with
      | value x => exact .ok rfl
      | operator => exact .fail (aligned.internal _)
    | cons second rest =>
      simp only [count]
      cases first <;> exact .fail (aligned.internal _)

end Reduction

section Evaluation

variable {run run' : Function → Callee → Scope → Except Error Answer} {scope : Scope}

inductive AwaitingMatches (t : Tolerance) : Awaiting → Awaiting → Prop
  | value : AwaitingMatches t (.value none) (.value none)
  | sign {o o' : Operator} : t.near o.site o'.site → o'.operation = o.operation →
      AwaitingMatches t (.value (some o)) (.value (some o'))
  | operator : AwaitingMatches t .operator .operator

theorem AwaitingMatches.signed {awaiting awaiting' : Awaiting}
    (h : AwaitingMatches t awaiting awaiting') (x : Float) :
    awaiting'.signed x = awaiting.signed x := by
  cases h with
  | value | operator => rfl
  | sign near same => simp only [Awaiting.signed, same]

theorem Linked.value? (link : Linked t sheet sheet') {name : String} (shared : t.shared name) :
    sheet'.value? scope name = sheet.value? scope name := by
  unfold Sheet.value?
  rw [link.constants shared]

theorem Aligned.items (aligned : Aligned t sheet sheet') {formula formula' : Formula}
    (parts : List.Forall₂ (fun part part' => part.Matches t part' ∧
      Follows t (· = ·) (partValue sheet run scope part) (partValue sheet' run' scope part'))
      formula formula')
    {awaiting awaiting' : Awaiting} (state : AwaitingMatches t awaiting awaiting') :
    Follows t (List.Forall₂ (ItemMatches t)) (items sheet run scope awaiting formula)
      (items sheet' run' scope awaiting' formula') := by
  induction parts generalizing awaiting awaiting' with
  | nil =>
    cases state with
    | value | operator => exact .ok .nil
    | @sign o o' near same =>
      simp only [Sheet.items, same]
      exact .fail (aligned.grammar near _)
  | @cons part part' rest rest' first _ ih =>
    obtain ⟨same, value⟩ := first
    by_cases isValue : part.isValue
    · rw [items_value scope awaiting isValue,
        items_value scope awaiting' (same.isValue.trans isValue)]
      refine value.bind fun x _ _ _ equal => ?_
      cases equal
      refine (ih .operator).bind fun _ _ _ _ later => ?_
      rw [state.signed]
      exact .ok (.cons (.value _) later)
    · cases same with
      | literal | name | bracket | call => exact absurd rfl isValue
      | @operator o o' near equal =>
        cases state with
        | value =>
          simp only [Sheet.items, equal]
          split
          · exact ih (.sign near equal)
          · exact .fail (aligned.grammar near _)
        | sign => exact .fail (aligned.grammar near _)
        | operator =>
          refine (ih .value).bind fun _ _ _ _ later => ?_
          exact .ok (.cons (.operator near equal) later)

theorem Linked.checkArity (link : Linked t sheet sheet') {callee callee' : Callee}
    (near : t.near callee.site callee'.site) (name : callee'.name = callee.name)
    {f f' : Function} (same : f.Matches t f') (given : Nat) :
    Follows t (fun _ _ => True) (sheet.checkArity callee f given)
      (sheet'.checkArity callee' f' given) := by
  unfold Sheet.checkArity
  simp only [same.parameters, name]
  split
  · exact .fail (link.naming near _)
  · split
    · exact .fail (link.naming near _)
    · exact .ok trivial

theorem Aligned.conclude (aligned : Aligned t sheet sheet') {formula formula' : Formula}
    (same : Formula.Matches t formula formula') {listed listed' : Except Error (List Item)}
    (items : Follows t (List.Forall₂ (ItemMatches t)) listed listed') :
    Follows t (· = ·) (sheet.conclude formula listed) (sheet'.conclude formula' listed') := by
  have reduced : Follows t (· = ·) (listed.bind (Item.reduce sheet.limits sheet.source))
      (listed'.bind (Item.reduce sheet'.limits sheet'.source)) :=
    items.bind fun _ _ _ _ found => aligned.reduce found
  cases same with
  | nil => exact reduced
  | cons first rest =>
    cases first with
    | literal | name | bracket | call => exact reduced
    | operator near equal =>
      cases rest with
      | nil =>
        simp only [Sheet.conclude, equal]
        exact .fail (aligned.internal _)
      | cons => exact reduced

theorem Linked.formulaValue (link : Linked t sheet sheet')
    (runs : ∀ f f' callee callee' scope, f.Matches t f' → t.near callee.site callee'.site →
      callee'.kind = callee.kind → Follows t (· = ·) (run f callee scope) (run' f' callee' scope))
    {formula formula' : Formula} (same : Formula.Matches t formula formula') :
    Follows t (· = ·) (formulaValue sheet run scope formula)
      (formulaValue sheet' run' scope formula') := by
  induction formula using Formula.nesting_induction generalizing formula' with
  | step formula inBracket inArgument =>
    refine link.aligned.conclude same (link.aligned.items ?_ .value)
    refine ((List.forall₂_and_left _ _).mpr ⟨fun _ member => member, same⟩).imp ?_
    rintro part part' ⟨member, matched⟩
    refine ⟨matched, ?_⟩
    cases matched with
    | literal => exact .ok rfl
    | @name site site' near text shared =>
      simp only [partValue, text, link.value? shared]
      cases sheet.value? scope site.text with
      | some x => exact .ok rfl
      | none => exact .fail (link.naming near _)
    | operator near equal =>
      simp only [partValue, equal]
      exact .fail (link.internal _)
    | bracket inside => exact inBracket _ _ member inside
    | @call callee callee' arguments arguments' near name kind shared given =>
      simp only [partValue, name]
      have functions := link.functions shared
      generalize sheet.symbols.function? callee.name = f at functions
      generalize sheet'.symbols.function? callee.name = f' at functions
      cases functions with
      | none => exact .fail (link.naming near _)
      | @some f f' alike =>
        rw [← given.length_eq]
        refine (link.checkArity near name alike _).bind fun _ _ _ _ _ => ?_
        have values : Follows t (· = ·) (argumentValues sheet run scope arguments)
            (argumentValues sheet' run' scope arguments') := by
          rw [argumentValues_eq_mapM, argumentValues_eq_mapM, ← List.forall₂_eq_eq_eq]
          refine .mapM (((List.forall₂_and_left _ _).mpr ⟨fun _ member => member, given⟩).imp ?_)
          rintro argument argument' ⟨present, matched⟩
          exact inArgument callee arguments member argument present matched
        refine values.bind fun xs _ _ _ equal => ?_
        cases equal
        rw [alike.parameters]
        refine (runs f f' callee callee' _ alike near kind).bind fun answer _ _ _ equal => ?_
        cases equal
        cases answer with
        | number x => exact .ok rfl
        | points => exact .fail (link.grammar near _)

theorem Linked.sample (link : Linked t sheet sheet')
    {definition definition' : Definition} (same : definition.Matches t definition')
    (values : ∀ scope, Follows t (· = ·) (Sheet.formulaValue sheet run scope definition.body)
      (Sheet.formulaValue sheet' run' scope definition'.body)) (x : Int) :
    Follows t (· = ·) (Sheet.sample sheet run definition x)
      (Sheet.sample sheet' run' definition' x) := by
  simp only [Sheet.sample, same.parameters]
  have followed := values (.bind [definition.parameters.head?.getD "x"] [Float.ofInt x])
  generalize Sheet.formulaValue sheet run _ definition.body = value at followed
  generalize Sheet.formulaValue sheet' run' _ definition'.body = value' at followed
  cases followed with
  | @ok y _ equal =>
    cases equal
    exact .ok rfl
  | @like e e' alike =>
    simp only [link.like_gap alike]
    split
    · exact .ok rfl
    · exact .like alike
  | @free e y free =>
    simp only [link.free_gap free]
    exact .free free

theorem Linked.samples (link : Linked t sheet sheet')
    {definition definition' : Definition} (same : definition.Matches t definition')
    (values : ∀ scope, Follows t (· = ·) (Sheet.formulaValue sheet run scope definition.body)
      (Sheet.formulaValue sheet' run' scope definition'.body)) :
    Follows t (· = ·) (Sheet.samples sheet run definition) (Sheet.samples sheet' run' definition') := by
  unfold Sheet.samples
  rw [link.range, ← List.forall₂_eq_eq_eq]
  exact .mapM (List.forall₂_same.mpr fun x _ => link.sample same values x)

theorem Linked.answer (link : Linked t sheet sheet') (p : Progression) (kind : CallKind)
    (value : Float) :
    p.answer sheet'.limits.maxExponent kind value = p.answer sheet.limits.maxExponent kind value ∨
      ∃ fault, fault.isOutOfRange ∧
        p.answer sheet.limits.maxExponent kind value = .error fault := by
  -- Only the exponent of a term and the length of a sum are held against the limit.
  have kept {given : Float} (small : ¬given > sheet.limits.maxExponent) :
      ¬given > sheet'.limits.maxExponent := small ∘ link.exponents given
  unfold Progression.answer
  rcases kind with _ | _ | _ | _
  · by_cases large : value - 1 > sheet.limits.maxExponent
    · exact .inr ⟨.exponentTooLarge sheet.limits.maxExponent (value - 1), rfl,
        by simp only [if_pos large]; rfl⟩
    · exact .inl (by simp only [if_neg large, if_neg (kept large)])
  · exact .inl rfl
  · by_cases large : value > sheet.limits.maxExponent
    · exact .inr ⟨.exponentTooLarge sheet.limits.maxExponent value, rfl,
        by simp only [if_pos large]; rfl⟩
    · exact .inl (by simp only [if_neg large, if_neg (kept large)])
  · exact .inl rfl

theorem Linked.askSequence (link : Linked t sheet sheet') {site site' : Site}
    (near : t.near site site') (kind : CallKind) (value : Float) :
    Follows t (· = ·) (sheet.askSequence site kind value)
      (sheet'.askSequence site' kind value) := by
  have known := link.progression
  unfold Sheet.askSequence
  cases here : sheet.checkedSequence? with
  | none =>
    rw [here] at known
    rw [Option.map_eq_none_iff.mp known]
    exact .fail (link.naming near _)
  | some pair =>
    obtain ⟨s, p⟩ := pair
    rw [here] at known
    obtain ⟨⟨s', p'⟩, there, same⟩ := Option.map_eq_some_iff.mp known
    cases same
    rw [there]
    rcases link.answer p kind value with equal | ⟨fault, out, failed⟩
    · simp only [equal]
      cases p.answer sheet.limits.maxExponent kind value with
      | ok x => exact .ok rfl
      | error fault => exact .fail (link.arithmetic near fault _ _)
    · simp only [failed]
      exact .free (link.outOfRange out)

theorem Linked.runBuiltin (link : Linked t sheet sheet') {site site' : Site}
    (near : t.near site site') (b : Builtin) (scope : Scope) :
    Follows t (· = ·) (sheet.runBuiltin b site scope) (sheet'.runBuiltin b site' scope) := by
  have arguments : Follows t (· = ·) ((b.parameters.mapM scope.argument).mapError Error.internal)
      ((b.parameters.mapM scope.argument).mapError Error.internal) := by
    cases b.parameters.mapM scope.argument with
    | ok values => exact .ok rfl
    | error fault => exact .fail (link.internal fault)
  refine arguments.bind fun values _ _ _ equal => ?_
  cases equal
  simp only
  cases b.call values with
  | ok value =>
    simp only
    split
    · exact .ok rfl
    · exact .fail (link.arithmetic near _ _ _)
  | error fault =>
    cases fault with
    | divisionByZero => exact .fail (link.arithmetic near _ _ _)
    | argumentCount => exact .fail (link.naming near _)

theorem Linked.runFunction (link : Linked t sheet sheet') {f f' : Function}
    (same : f.Matches t f') {callee callee' : Callee} (near : t.near callee.site callee'.site)
    (kind : callee'.kind = callee.kind) (depth : Nat) (scope : Scope) :
    Follows t (· = ·) (sheet.runFunction depth f callee scope)
      (sheet'.runFunction depth f' callee' scope) := by
  induction depth generalizing f f' callee callee' scope with
  | zero => exact .fail (link.internal _)
  | succ depth ih =>
    have bodies {definition definition' : Definition}
        (matched : definition.Matches t definition') (scope : Scope) :
        Follows t (· = ·)
          (Sheet.formulaValue sheet (sheet.runFunction depth) scope definition.body)
          (Sheet.formulaValue sheet' (sheet'.runFunction depth) scope definition'.body) :=
      link.formulaValue (fun _ _ _ _ scope same near kind => ih same near kind scope) matched.body
    cases same with
    | user matched => exact (bodies matched scope).map fun _ _ equal => congrArg _ equal
    | plot matched => exact (link.samples matched (bodies matched)).map fun _ _ => congrArg _
    | sequence =>
      simp only [Sheet.runFunction, kind]
      have value : Follows t (· = ·) ((scope.argument "value").mapError Error.internal)
          ((scope.argument "value").mapError Error.internal) := by
        cases scope.argument "value" with
        | ok x => exact .ok rfl
        | error fault => exact .fail (link.internal fault)
      refine value.bind fun x _ _ _ equal => ?_
      cases equal
      exact (link.askSequence near callee.kind x).bind fun y _ _ _ equal => .ok (congrArg _ equal)
    | builtin b => exact (link.runBuiltin near b scope).map fun _ _ => congrArg _

theorem Linked.valueAtDepth (link : Linked t sheet sheet') {formula formula' : Formula}
    (same : Formula.Matches t formula formula') (depth : Nat) (scope : Scope) :
    Follows t (· = ·) (Sheet.formulaValue sheet (sheet.runFunction depth) scope formula)
      (Sheet.formulaValue sheet' (sheet'.runFunction depth) scope formula') :=
  link.formulaValue
    (fun _ _ _ _ scope same near kind => link.runFunction same near kind depth scope) same

end Evaluation

end Sheet

end FormulaSheet
