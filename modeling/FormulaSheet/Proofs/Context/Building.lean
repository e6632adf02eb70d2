import FormulaSheet.Proofs.Grammar.Lines
import FormulaSheet.Proofs.Lexing.Names
import FormulaSheet.Proofs.Simulation

set_option autoImplicit false

namespace FormulaSheet

open Formula (LineEnd lineEnd closeGroup addValue addOperator foldSign endsInValue chain lines
  captured finish Finishes build_induction)

def Tolerance.sharing (shared : String → Prop) : Tolerance where
  near := fun _ _ => True
  like := fun e e' => e.isDivisionByZero = true ∧ e'.isDivisionByZero = true
  free := fun e => e.isDivisionByZero = false
  shared

section Tokens

variable {shared : String → Prop} {source source' : String}

theorem Shape.Moved.eq_of_plain {shape shape' : Shape} (h : shape.Moved source source' shape')
    (bare : shape.captures = []) : shape' = shape := by
  cases h with
  | plain => rfl
  | function | plot | sequence | call | query => contradiction

theorem Shape.Moved.of_call {shape' : Shape} {callee arguments : Capture}
    (h : (Shape.call callee arguments).Moved source source' shape') :
    ∃ callee' arguments', shape' = .call callee' arguments' ∧
      callee.Moved source source' callee' ∧ arguments.Moved source source' arguments' := by
  cases h with
  | call named given => exact ⟨_, _, rfl, named, given⟩
  | plain bare => contradiction

theorem Shape.Moved.of_query {shape' : Shape} {query : Query} {arguments : Capture}
    (h : (Shape.query query arguments).Moved source source' shape') :
    ∃ arguments', shape' = .query query arguments' ∧
      arguments.Moved source source' arguments' := by
  cases h with
  | query given => exact ⟨_, rfl, ‹_›⟩
  | plain bare => contradiction

theorem Shape.Moved.of_definition {shape' : Shape} {outline : Outline}
    (h : (Shape.definition outline).Moved source source' shape') :
    ∃ outline', shape' = .definition outline' := by
  cases h with
  | function | plot | sequence | plain => exact ⟨_, rfl⟩

structure Token.Carried (shared : String → Prop) (source source' : String)
    (token token' : Token) : Prop extends Token.Moved source source' token token' where
  shares : token.Shares shared

structure Capture.Carried (shared : String → Prop) (source source' : String)
    (capture capture' : Capture) : Prop extends Capture.Moved source source' capture capture' where
  shares : ∀ name ∈ Token.names capture.text.toList, shared name

theorem Token.Reads.carried {grammar : Token.Grammar} {place place' : Place} {cs : List Char}
    {tokens : List Token} (h : Reads grammar place cs tokens)
    (here : StandsAt source place.index cs) (there : StandsAt source' place'.index cs)
    (known : ∀ name ∈ names cs, shared name) :
    ∃ tokens', Reads grammar place' cs tokens' ∧
      List.Forall₂ (Carried shared source source') tokens tokens' := by
  obtain ⟨tokens', reads, moved⟩ := h.moved here there
  refine ⟨tokens', reads, ?_⟩
  refine ((List.forall₂_and_left _ _).mpr ⟨h.shares known, moved⟩).imp ?_
  rintro token token' ⟨shares, moved⟩
  exact ⟨moved, shares⟩

theorem Capture.Carried.read {grammar : Token.Grammar} {capture capture' : Capture}
    (h : capture.Carried shared source source' capture')
    (read : (Token.read grammar source capture.offset capture.stop).failure = none) :
    (Token.read grammar source' capture'.offset capture'.stop).failure = none ∧
      List.Forall₂ (Token.Carried shared source source')
        (Token.read grammar source capture.offset capture.stop).tokens
        (Token.read grammar source' capture'.offset capture'.stop).tokens := by
  have there : StandsAt source' capture'.offset capture'.text.toList := h.text ▸ h.there
  obtain ⟨place, start, same⟩ := Token.read_capture _ h.here
  obtain ⟨place', start', again⟩ := Token.read_capture _ there
  rw [same] at read ⊢
  rw [again, h.text]
  obtain ⟨tokens', reads, carried⟩ := (Token.reads_of_readFrom read).carried
    (start ▸ h.here) (start' ▸ h.there) h.shares
  rw [reads.readFrom_eq]
  exact ⟨rfl, carried⟩

end Tokens

section Lines

variable {shared : String → Prop} {source source' : String}

inductive LineEndCarried (shared : String → Prop) (source source' : String) :
    LineEnd → LineEnd → Prop
  | input : LineEndCarried shared source source' .input .input
  | separator {rest rest' : List Token} :
      List.Forall₂ (Token.Carried shared source source') rest rest' →
        LineEndCarried shared source source' (.separator rest) (.separator rest')
  | definition {token token' : Token} {outline outline' : Outline} {rest rest' : List Token} :
      token.Carried shared source source' token' → token.shape = .definition outline →
        token'.shape = .definition outline' →
          List.Forall₂ (Token.Carried shared source source') rest rest' →
            LineEndCarried shared source source' (.definition token.site outline rest)
              (.definition token'.site outline' rest')

theorem lineEnd_carried {tokens tokens' : List Token}
    (h : List.Forall₂ (Token.Carried shared source source') tokens tokens') (depth : Nat) :
    LineEndCarried shared source source' (lineEnd depth tokens) (lineEnd depth tokens') := by
  induction h generalizing depth with
  | nil => exact .input
  | @cons token token' tokens tokens' first rest ih =>
    obtain ⟨site, shape⟩ := token
    obtain ⟨site', shape'⟩ := token'
    have moved := first.shape
    simp only at moved
    have defined {outline outline' : Outline} (here : shape = .definition outline)
        (there : shape' = .definition outline') :
        LineEndCarried shared source source' (lineEnd depth (⟨site, shape⟩ :: tokens))
          (lineEnd depth (⟨site', shape'⟩ :: tokens')) := by
      simp only [lineEnd, here, there]
      split
      · subst here there
        exact .definition first rfl rfl rest
      · exact ih depth
    cases moved with
    | function | plot | sequence => exact defined rfl rfl
    | call | query => exact ih depth
    | plain bare =>
      cases shape with
      | separator =>
        simp only [lineEnd]
        split
        · exact .separator rest
        · exact ih depth
      | leftParen | rightParen => exact ih _
      | name | number | operator | equals => exact ih depth
      | definition outline => exact defined rfl rfl
      | call | query => exact ih depth

theorem closeGroup_carried {tokens tokens' : List Token}
    (h : List.Forall₂ (Token.Carried shared source source') tokens tokens') (depth : Nat) :
    Option.Rel (fun split split' =>
        List.Forall₂ (Token.Carried shared source source') split.1 split'.1 ∧
        List.Forall₂ (Token.Carried shared source source') split.2 split'.2)
      (closeGroup depth tokens) (closeGroup depth tokens') := by
  induction h generalizing depth with
  | nil => exact .none
  | @cons token token' tokens tokens' first rest ih =>
    have inside (depth : Nat) : Option.Rel (fun split split' =>
          List.Forall₂ (Token.Carried shared source source') split.1 split'.1 ∧
          List.Forall₂ (Token.Carried shared source source') split.2 split'.2)
        ((closeGroup depth tokens).map fun split => (token :: split.1, split.2))
        ((closeGroup depth tokens').map fun split => (token' :: split.1, split.2)) := by
      have later := ih depth
      generalize closeGroup depth tokens = found at later
      generalize closeGroup depth tokens' = found' at later
      cases later with
      | none => exact .none
      | some both => exact .some ⟨.cons first both.1, both.2⟩
    obtain ⟨site, shape⟩ := token
    obtain ⟨site', shape'⟩ := token'
    have moved := first.shape
    simp only at moved
    cases moved with
    | function | plot | sequence | call | query => exact inside depth
    | plain bare =>
      cases shape with
      | leftParen => exact inside (depth + 1)
      | rightParen =>
        cases depth with
        | zero => exact .some ⟨.nil, rest⟩
        | succ depth => exact inside depth
      | separator | name | number | operator | equals | definition | call | query =>
        exact inside depth

end Lines

section Formulas

variable {t : Tolerance}

theorem matches_addValue (anywhere : ∀ site site', t.near site site') {done done' : Formula}
    (before : Formula.Matches t done done') {part part' : Part} (same : part.Matches t part') :
    Formula.Matches t (addValue done part) (addValue done' part') := by
  cases before with
  | nil => exact .cons same .nil
  | @cons last last' earlier earlier' first rest =>
    simp only [addValue, first.isValue]
    split
    · exact .cons same (.cons (.operator (anywhere _ _) rfl) (.cons first rest))
    · exact .cons same (.cons first rest)

theorem matches_addOperator (anywhere : ∀ site site', t.near site site') {done done' : Formula}
    (before : Formula.Matches t done done') {o o' : Operator} (same : o'.operation = o.operation)
    {after : Formula} (added : addOperator done o = .ok after) :
    ∃ after', addOperator done' o' = .ok after' ∧ Formula.Matches t after after' := by
  have operator : Part.Matches t (.operator o) (.operator o') := .operator (anywhere _ _) same
  cases before with
  | nil =>
    simp only [addOperator] at added ⊢
    split at added
    next minus =>
      cases added
      exact ⟨_, if_pos (same.trans minus), .cons operator .nil⟩
    · contradiction
  | @cons last last' earlier earlier' first rest =>
    cases first with
    | literal | name | bracket | call =>
      cases added
      exact ⟨_, rfl, .cons operator (.cons (by constructor <;> assumption) rest)⟩
    | @operator sign sign' near equal =>
      simp only [addOperator, same, equal] at added ⊢
      by_cases minuses : sign.operation = .subtract ∧ o.operation = .subtract
      · rw [if_pos minuses] at added
        cases added
        exact ⟨_, if_pos minuses, .cons (.operator (anywhere _ _) rfl) rest⟩
      rw [if_neg minuses] at added ⊢
      by_cases repeated : sign.operation = o.operation
      · rw [if_pos repeated] at added
        contradiction
      rw [if_neg repeated] at added ⊢
      by_cases other : o.operation ≠ .subtract
      · rw [if_pos other] at added
        contradiction
      · rw [if_neg other] at added
        cases added
        exact ⟨_, if_neg other, .cons operator (.cons (.operator near equal) rest)⟩

theorem matches_foldSign {formula formula' : Formula}
    (same : Formula.Matches t formula formula') :
    Formula.Matches t formula.foldSign formula'.foldSign := by
  cases same with
  | nil => exact .nil
  | cons first rest =>
    cases first with
    | literal | name | bracket | call =>
      exact .cons (by constructor <;> assumption) rest
    | @operator o o' near equal =>
      cases rest with
      | nil => exact .cons (.operator near equal) .nil
      | cons second rest =>
        cases second with
        | name | bracket | call | operator =>
          exact .cons (.operator near equal) (.cons (by constructor <;> assumption) rest)
        | literal site site' value =>
          simp only [foldSign, equal]
          split
          · exact .cons (.literal _ _ _) rest
          · exact .cons (.operator near equal) (.cons (.literal _ _ _) rest)

theorem matches_endsInValue {formula formula' : Formula}
    (same : Formula.Matches t formula formula') : endsInValue formula' = endsInValue formula := by
  cases same with
  | nil => rfl
  | cons first rest => exact first.isValue

theorem matches_finish {source source' : String} {formula formula' finished : Formula}
    (same : Formula.Matches t formula formula')
    (nonempty : formula ≠ []) (done : finish source formula = .ok finished) : formula' ≠ [] ∧
    ∃ finished', finish source' formula' = .ok finished' ∧
      Formula.Matches t finished finished' := by
  have filled : formula' ≠ [] := by
    rintro rfl
    cases same
    contradiction
  have ends := (Formula.finish_ok_iff nonempty).mp ⟨finished, done⟩
  rw [← matches_endsInValue (List.forall₂_reverse_iff.mpr same)] at ends
  obtain ⟨finished', done'⟩ := (Formula.finish_ok_iff filled).mpr ends
  refine ⟨filled, finished', done', ?_⟩
  rw [Formula.finish_eq_ok done, Formula.finish_eq_ok done']
  exact matches_foldSign same

end Formulas

section Building

variable {shared : String → Prop} {source source' : String}

theorem finishes_carried {formula formula' : Formula} {others others' formulas : List Formula}
    (same : Formula.Matches (.sharing shared) formula formula')
    (rest : List.Forall₂ (Formula.Matches (.sharing shared)) others others')
    (done : Finishes source formula others formulas) :
    ∃ formulas', Finishes source' formula' others' formulas' ∧
      List.Forall₂ (Formula.Matches (.sharing shared)) formulas formulas' := by
  rcases done with ⟨rfl, rfl⟩ | ⟨nonempty, finished, done, rfl⟩
  · cases same
    exact ⟨others', .inl ⟨rfl, rfl⟩, rest⟩
  · obtain ⟨filled, finished', done', alike⟩ := matches_finish same nonempty done
    exact ⟨finished' :: others', .inr ⟨filled, finished', done', rfl⟩, .cons alike rest⟩

theorem Capture.Carried.builds {grammar : Token.Grammar} {capture capture' : Capture}
    {formulas : List Formula}
    (carried : capture.Carried shared source source' capture')
    (built : captured source grammar capture = .ok formulas)
    (inner : ∀ tokens', List.Forall₂ (Token.Carried shared source source')
      (Token.read grammar source capture.offset capture.stop).tokens tokens' →
        ∃ formulas', lines source' tokens' = .ok formulas' ∧
          List.Forall₂ (Formula.Matches (.sharing shared)) formulas formulas') :
    ∃ formulas', captured source' grammar capture' = .ok formulas' ∧
      List.Forall₂ (Formula.Matches (.sharing shared)) formulas formulas' := by
  obtain ⟨read, tokens⟩ := carried.read (Formula.captured_ok.mp built).1
  obtain ⟨formulas', built', alike⟩ := inner _ tokens
  exact ⟨formulas', Formula.captured_ok.mpr ⟨read, built'⟩, alike⟩

theorem building_carried (shared : String → Prop) (known : shared "s")
    (source source' : String) :
    (∀ done tokens formula, chain source done tokens = .ok formula →
      ∀ done' tokens', Formula.Matches (.sharing shared) done done' →
        List.Forall₂ (Token.Carried shared source source') tokens tokens' →
          ∃ formula', chain source' done' tokens' = .ok formula' ∧
            Formula.Matches (.sharing shared) formula formula') ∧
    ∀ tokens formulas, lines source tokens = .ok formulas →
      ∀ tokens', List.Forall₂ (Token.Carried shared source source') tokens tokens' →
        ∃ formulas', lines source' tokens' = .ok formulas' ∧
          List.Forall₂ (Formula.Matches (.sharing shared)) formulas formulas' := by
  have anywhere (site site' : Site) : (Tolerance.sharing shared).near site site' := trivial
  refine build_induction
    (fun done tokens formula => ∀ done' tokens', Formula.Matches (.sharing shared) done done' →
      List.Forall₂ (Token.Carried shared source source') tokens tokens' →
        ∃ formula', chain source' done' tokens' = .ok formula' ∧
          Formula.Matches (.sharing shared) formula formula')
    (fun tokens formulas => ∀ tokens',
      List.Forall₂ (Token.Carried shared source source') tokens tokens' →
        ∃ formulas', lines source' tokens' = .ok formulas' ∧
          List.Forall₂ (Formula.Matches (.sharing shared)) formulas formulas')
    ?nil ?ended ?number ?name ?operator ?group ?call ?query ?last ?line
  case nil =>
    rintro done done' _ before ⟨⟩
    exact ⟨done'.reverse, by rw [chain], List.forall₂_reverse_iff.mpr before⟩
  case ended =>
    rintro done token rest shape done' _ before (_ | ⟨first, -⟩)
    have ends : ∀ token', token.Carried shared source source' token' →
        token'.shape = .separator ∨ ∃ outline, token'.shape = .definition outline := by
      intro token' carried
      have moved := carried.shape
      rcases shape with shape | ⟨outline, shape⟩
      · rw [shape] at moved
        exact .inl (moved.eq_of_plain rfl)
      · rw [shape] at moved
        exact .inr moved.of_definition
    exact ⟨done'.reverse, Formula.chain_ended (ends _ first), List.forall₂_reverse_iff.mpr before⟩
  case number =>
    rintro done token rest value formula shape ih done' _ before (_ | ⟨first, later⟩)
    have moved := first.shape.eq_of_plain (by rw [shape]; rfl)
    obtain ⟨formula', built, same⟩ := ih _ _ (matches_addValue anywhere before
      (.literal token.site _ value)) later
    exact ⟨formula', (Formula.chain_number (moved.trans shape)).trans built, same⟩
  case name =>
    rintro done token rest formula shape ih done' _ before (_ | ⟨first, later⟩)
    have moved := first.shape.eq_of_plain (by rw [shape]; rfl)
    obtain ⟨formula', built, same⟩ := ih _ _ (matches_addValue anywhere before
      (.name trivial first.text (first.shares.name shape))) later
    exact ⟨formula', (Formula.chain_name (moved.trans shape)).trans built, same⟩
  case operator =>
    rintro done token rest operation after formula shape added ih done' _ before
      (_ | @⟨_, token', _, _, first, later⟩)
    have moved := first.shape.eq_of_plain (by rw [shape]; rfl)
    have alike : (Operator.mk operation token'.site).operation =
        (Operator.mk operation token.site).operation := rfl
    obtain ⟨after', added', same⟩ := matches_addOperator anywhere before alike added
    obtain ⟨formula', built, same⟩ := ih _ _ same later
    exact ⟨formula', (Formula.chain_operator (moved.trans shape) added').trans built, same⟩
  case group =>
    rintro done token rest inside after group formula shape found inner outer done' _ before
      (_ | @⟨_, token', _, rest', first, later⟩)
    have moved := first.shape.eq_of_plain (by rw [shape]; rfl)
    have groups := closeGroup_carried later 0
    rw [found] at groups
    generalize split : closeGroup 0 rest' = found' at groups
    cases groups with
    | @some _ parts both =>
      obtain ⟨inside', after'⟩ := parts
      obtain ⟨_, read, alike⟩ := inner inside' both.1
      cases alike with
      | cons one none =>
        cases none
        obtain ⟨formula', built, same⟩ := outer _ _ (matches_addValue anywhere before
          (.bracket one)) both.2
        exact ⟨formula', (Formula.chain_group (moved.trans shape)).mpr
          ⟨inside', after', _, split, read, built⟩, same⟩
  case call =>
    rintro done token rest callee arguments values formula shape read inner outer done' _ before
      (_ | @⟨_, token', _, _, first, later⟩)
    have moved := first.shape
    rw [shape] at moved
    obtain ⟨callee', arguments', shape', named, given⟩ := moved.of_call
    have carried : arguments.Carried shared source source' arguments' :=
      ⟨given, first.shares.captures arguments (by simp [shape, Shape.captures])⟩
    obtain ⟨values', read', alike⟩ := carried.builds read inner
    have calls : Part.Matches (.sharing shared) (.call ⟨token.site, callee.text, .plain⟩ values)
        (.call ⟨token'.site, callee'.text, .plain⟩ values') :=
      .call trivial named.text rfl (first.shares.callee _ _ shape) alike
    obtain ⟨formula', chained, same⟩ := outer _ _ (matches_addValue anywhere before calls) later
    refine ⟨formula', ?_, same⟩
    rw [Formula.chain_call shape', read']
    exact chained
  case query =>
    rintro done token rest query arguments values formula shape read inner outer done' _ before
      (_ | @⟨_, token', _, _, first, later⟩)
    have moved := first.shape
    rw [shape] at moved
    obtain ⟨arguments', shape', given⟩ := moved.of_query
    have carried : arguments.Carried shared source source' arguments' :=
      ⟨given, first.shares.captures arguments (by simp [shape, Shape.captures])⟩
    obtain ⟨values', read', alike⟩ := carried.builds read inner
    have calls : Part.Matches (.sharing shared) (.call ⟨token.site, "s", .query query⟩ values)
        (.call ⟨token'.site, "s", .query query⟩ values') := .call trivial rfl rfl known alike
    obtain ⟨formula', chained, same⟩ := outer _ _ (matches_addValue anywhere before calls) later
    refine ⟨formula', ?_, same⟩
    rw [Formula.chain_query shape', read']
    exact chained
  case last =>
    intro tokens formula formulas first stop done tokens' carried
    obtain ⟨formula', built, same⟩ := first [] tokens' .nil carried
    obtain ⟨formulas', done', alike⟩ := finishes_carried same .nil done
    have ends := lineEnd_carried carried 0
    rw [stop] at ends
    generalize stop' : lineEnd 0 tokens' = ending at ends
    cases ends
    exact ⟨formulas', lines_cons built stop' done', alike⟩
  case line =>
    intro tokens formula rest others formulas first stop later done tokens' carried
    obtain ⟨formula', built, same⟩ := first [] tokens' .nil carried
    have ends := lineEnd_carried carried 0
    rw [stop] at ends
    generalize stop' : lineEnd 0 tokens' = ending at ends
    cases ends with
    | @separator _ rest' rest =>
      obtain ⟨others', read, more⟩ := later rest' rest
      obtain ⟨formulas', done', alike⟩ := finishes_carried same more done
      exact ⟨formulas', lines_separated built stop' read done', alike⟩

theorem captured_carried (known : shared "s") {grammar : Token.Grammar}
    {capture capture' : Capture} (carried : capture.Carried shared source source' capture')
    {formulas : List Formula} (built : captured source grammar capture = .ok formulas) :
    ∃ formulas', captured source' grammar capture' = .ok formulas' ∧
      List.Forall₂ (Formula.Matches (.sharing shared)) formulas formulas' :=
  carried.builds built ((building_carried shared known source source').2 _ _
    (Formula.captured_ok.mp built).2)

end Building

end FormulaSheet
