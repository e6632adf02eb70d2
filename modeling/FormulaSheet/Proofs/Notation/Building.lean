import FormulaSheet.Proofs.Grammar.Building
import FormulaSheet.Proofs.Notation.Respelling
import FormulaSheet.Proofs.Parsed

set_option autoImplicit false

namespace FormulaSheet

open Formula (lineEnd closeGroup addValue addOperator foldSign endsInValue chain rawLines lines
  captured finish finishAll)

def Shape.isAtom : Shape → Bool
  | number _ | name | call .. | query .. => true
  | _ => false

namespace Formula

variable {o o' : Operator} {source : String} {done done' : Formula}

section Parts

theorem restated_addValue (before : Formula.Restated o o' done done') {part part' : Part}
    (same : part.Restated o o' part') (place : part'.place = part.place) :
    Formula.Restated o o' (addValue done part) (addValue done' part') := by
  cases before with
  | nil => exact .cons same .nil
  | @cons last last' earlier earlier' first rest =>
    simp only [addValue, first.isValue, place]
    split
    · exact .cons same (.cons (.refl _) (.cons first rest))
    · exact .cons same (.cons first rest)

theorem restated_addOperator (rewrites : o.Rewrites o')
    (before : Formula.Restated o o' done done') (x : Operator) :
    (∃ fault, addOperator done x = .error fault ∧ addOperator done' x = .error fault) ∨
      ∃ after after', addOperator done x = .ok after ∧ addOperator done' x = .ok after' ∧
        Formula.Restated o o' after after' := by
  have pushed {last last' : Part} {earlier earlier' : Formula}
      (first : last.Restated o o' last') (rest : Formula.Restated o o' earlier earlier') :
      Formula.Restated o o' (.operator x :: last :: earlier) (.operator x :: last' :: earlier') :=
    .cons (.refl _) (.cons first rest)
  cases before with
  | nil =>
    simp only [addOperator]
    split
    · exact .inr ⟨_, _, rfl, rfl, .refl _⟩
    · exact .inl ⟨_, rfl, rfl⟩
  | @cons last last' earlier earlier' first rest =>
    cases first with
    | bracket inside => exact .inr ⟨_, _, rfl, rfl, pushed (.bracket inside) rest⟩
    | operator =>
      simp only [addOperator, rewrites.same, rewrites.unsigned, false_and, if_false]
      split
      · exact .inl ⟨_, rfl, rfl⟩
      · split
        · exact .inl ⟨_, rfl, rfl⟩
        · exact .inr ⟨_, _, rfl, rfl, pushed .operator rest⟩
    | refl =>
      cases last with
      | literal | name | bracket | call => exact .inr ⟨_, _, rfl, rfl, pushed (.refl _) rest⟩
      | operator last =>
        simp only [addOperator]
        split
        · exact .inr ⟨_, _, rfl, rfl, .cons (.refl _) rest⟩
        · split
          · exact .inl ⟨_, rfl, rfl⟩
          · split
            · exact .inl ⟨_, rfl, rfl⟩
            · exact .inr ⟨_, _, rfl, rfl, pushed (.refl _) rest⟩

theorem foldSign_unsigned (unsigned : o.operation ≠ .subtract) (rest : Formula) :
    foldSign (.operator o :: rest) = .operator o :: rest := by
  unfold foldSign
  split
  next same =>
    cases same
    exact if_neg unsigned
  · rfl

theorem restated_foldSign (rewrites : o.Rewrites o')
    (same : Formula.Restated o o' done done') :
    Formula.Restated o o' done.foldSign done'.foldSign := by
  cases same with
  | nil => exact .nil
  | @cons first _ rest _ head tail =>
    cases head with
    | bracket inside => exact .cons (.bracket inside) tail
    | operator =>
      have unsigned' : o'.operation ≠ .subtract := rewrites.same ▸ rewrites.unsigned
      rw [foldSign_unsigned rewrites.unsigned, foldSign_unsigned unsigned']
      exact .cons .operator tail
    | refl =>
      cases first with
      | literal | name | bracket | call => exact .cons (.refl _) tail
      | operator x =>
        cases tail with
        | nil => exact .refl _
        | @cons second _ _ _ next tail =>
          cases next with
          | operator => exact .cons (.refl _) (.cons .operator tail)
          | bracket inside => exact .cons (.refl _) (.cons (.bracket inside) tail)
          | refl =>
            cases second with
            | name | bracket | call | operator => exact .cons (.refl _) (.cons (.refl _) tail)
            | literal =>
              simp only [foldSign]
              split
              · exact .cons (.refl _) tail
              · exact .cons (.refl _) (.cons (.refl _) tail)

theorem restated_finish (rewrites : o.Rewrites o')
    (same : Formula.Restated o o' done done') :
    Coincide (Formula.Restated o o') (finish source done) (finish source done') := by
  have folded := restated_foldSign rewrites same
  have backwards := List.forall₂_reverse_iff.mpr folded
  simp only [finish, ← List.head?_reverse]
  generalize done.foldSign.reverse = last at backwards
  generalize done'.foldSign.reverse = last' at backwards
  cases backwards with
  | nil => exact .ok folded
  | @cons part _ _ _ head _ =>
    cases head with
    | bracket => exact .ok folded
    | operator =>
      simp only [List.head?_cons, rewrites.same]
      exact .like (.grammar _ _ _)
    | refl =>
      cases part with
      | operator => exact .like (.refl _)
      | literal | name | bracket | call => exact .ok folded

theorem restated_finishAll (rewrites : o.Rewrites o') {raw raw' : List Formula}
    (same : List.Forall₂ (Formula.Restated o o') raw raw') :
    Coincide (List.Forall₂ (Formula.Restated o o')) (finishAll source raw)
      (finishAll source raw') := by
  have filtered : List.Forall₂ (Formula.Restated o o') (raw.filter (!·.isEmpty))
      (raw'.filter (!·.isEmpty)) := by
    induction same with
    | nil => exact .nil
    | cons head _ ih =>
      cases head with
      | nil => exact ih
      | cons first rest => exact .cons (.cons first rest) ih
  exact Follows.mapM (filtered.imp fun _ _ => restated_finish rewrites)

end Parts

section Chains

variable {token : Token} {rest : List Token}

theorem weights_lt_cons (token : Token) (rest : List Token) :
    Token.weights rest < Token.weights (token :: rest) := by
  have := token.weight_pos
  simp only [Token.weights_cons]
  omega

inductive Atomic (source : String) (token : Token) : Prop
  | fails (e : Error) : (∀ done rest, chain source done (token :: rest) = .error e) →
      Atomic source token
  | adds (part : Part) : part.isValue → part.place = token.site.place →
      (∀ done rest, chain source done (token :: rest) = chain source (addValue done part) rest) →
        Atomic source token

theorem atomic_of_isAtom (atom : token.shape.isAtom) : Atomic source token := by
  cases shape : token.shape with
  | number value => exact .adds (.literal token.site value) rfl rfl fun _ _ => chain_number shape
  | name => exact .adds (.name token.site) rfl rfl fun _ _ => chain_name shape
  | call callee arguments =>
    cases read : captured source .arguments arguments with
    | error e =>
      refine .fails e fun _ _ => ?_
      rw [chain_call shape, read]
      rfl
    | ok values =>
      refine .adds (.call ⟨token.site, callee.text, .plain⟩ values) rfl rfl fun _ _ => ?_
      rw [chain_call shape, read]
      rfl
  | query query arguments =>
    cases read : captured source .arguments arguments with
    | error e =>
      refine .fails e fun _ _ => ?_
      rw [chain_query shape, read]
      rfl
    | ok values =>
      refine .adds (.call ⟨token.site, "s", .query query⟩ values) rfl rfl fun _ _ => ?_
      rw [chain_query shape, read]
      rfl
  | leftParen | separator | definition | operator | rightParen | equals =>
    rw [shape] at atom
    contradiction

inductive Adds (source : String) (token : Token) (rest : List Token) : Prop
  | fails (e : Error) : (∀ done, chain source done (token :: rest) = .error e) →
      Adds source token rest
  | adds (part : Part) (after : List Token) : part.place = token.site.place →
      Token.weights after < Token.weights (token :: rest) →
      (∀ done, chain source done (token :: rest) = chain source (addValue done part) after) →
        Adds source token rest

theorem adds_of_beginsValue (begins : token.shape.beginsValue) : Adds source token rest := by
  have lighter := weights_lt_cons token rest
  by_cases atom : token.shape.isAtom
  · have one : Atomic source token := atomic_of_isAtom atom
    cases one with
    | fails e failed => exact .fails e fun done => failed done rest
    | adds part _ place added => exact .adds part rest place lighter fun done => added done rest
  have shape : token.shape = .leftParen := by
    cases shape : token.shape <;> rw [shape] at begins atom <;> first | rfl | contradiction
  cases found : closeGroup 0 rest with
  | none => exact .fails _ fun _ => chain_unclosed shape found
  | some split =>
    obtain ⟨inside, after⟩ := split
    have shorter := weights_closeGroup_le found
    cases built : lines source inside with
    | error e =>
      refine .fails e fun _ => ?_
      rw [chain_inside shape found, built]
      rfl
    | ok groups =>
      have step (done : Formula) : chain source done (token :: rest) = _ :=
        chain_inside shape found
      simp only [built] at step
      rcases groups with _ | ⟨group, _ | _⟩
      · exact .fails _ step
      · exact .adds (.bracket token.site group) after rfl (by omega) step
      · exact .fails _ step

theorem chain_restated (rewrites : o.Rewrites o') (tokens : List Token) {done done' : Formula}
    (before : Formula.Restated o o' done done') :
    Coincide (Formula.Restated o o') (chain source done tokens) (chain source done' tokens) := by
  induction size : Token.weights tokens using Nat.strongRecOn generalizing tokens done done' with
  | _ n ih =>
    subst size
    cases tokens with
    | nil =>
      rw [chain, chain]
      exact .ok (List.forall₂_reverse_iff.mpr before)
    | cons token rest =>
      have later {after : List Token} {done done' : Formula}
          (lighter : Token.weights after < Token.weights (token :: rest))
          (before : Formula.Restated o o' done done') :=
        ih _ lighter after before rfl
      by_cases begins : token.shape.beginsValue
      · have step : Adds source token rest := adds_of_beginsValue begins
        cases step with
        | fails e failed =>
          rw [failed, failed]
          exact .like (.refl e)
        | adds part after place lighter added =>
          rw [added, added]
          exact later lighter (restated_addValue before (.refl part) rfl)
      cases shape : token.shape with
      | separator =>
        rw [chain_ended (.inl shape), chain_ended (.inl shape)]
        exact .ok (List.forall₂_reverse_iff.mpr before)
      | definition outline =>
        rw [chain_ended (.inr ⟨outline, shape⟩), chain_ended (.inr ⟨outline, shape⟩)]
        exact .ok (List.forall₂_reverse_iff.mpr before)
      | operator operation =>
        rcases restated_addOperator rewrites before ⟨operation, token.site⟩ with
          ⟨fault, refused, refused'⟩ | ⟨after, after', added, added', same⟩
        · rw [chain_operator_error shape refused, chain_operator_error shape refused']
          exact .like (.refl _)
        · rw [chain_operator shape added, chain_operator shape added']
          exact later (weights_lt_cons token rest) same
      | rightParen =>
        rw [chain_closing shape, chain_closing shape]
        exact .like (.refl _)
      | equals =>
        rw [chain_equals shape, chain_equals shape]
        exact .like (.refl _)
      | number | name | call | query | leftParen =>
        rw [shape] at begins
        exact absurd rfl begins

theorem addValue_after (ends : endsInValue done) (part : Part) :
    addValue done part = part :: .operator (.implied part.place) :: done := by
  cases done with
  | nil => contradiction
  | cons last earlier => exact if_pos ends

theorem addOperator_minuses (site site' : Site) (done : Formula) :
    addOperator (.operator ⟨.subtract, site⟩ :: done) ⟨.subtract, site'⟩ =
      .ok (.operator ⟨.add, ⟨Operation.add.text, site.place⟩⟩ :: done) := rfl

theorem chain_rewritten {later later' : List Token} (h : Token.Rewritten o o' later later')
    (ends : endsInValue done) :
    Coincide (Formula.Restated o o') (chain source done later) (chain source done later') := by
  have rewrites := h.rewrites
  cases h with
  | @product star second after multiply begins =>
    rw [chain_operator multiply (addOperator_value ends _)]
    have step : Adds source second after := adds_of_beginsValue begins
    cases step with
    | fails e failed =>
      rw [failed, failed]
      exact .like (.refl e)
    | adds part after place lighter added =>
      rw [added, added, addValue_after ends, place]
      exact chain_restated rewrites after (.cons (.refl part)
        (.cons .operator (Formula.Restated.refl done)))
  | @sum minus minus' plus after first second added =>
    rw [chain_operator first (addOperator_value ends _),
      chain_operator second (addOperator_minuses _ _ done),
      chain_operator added (addOperator_value ends _)]
    exact chain_restated rewrites after (.cons .operator (Formula.Restated.refl done))

theorem chain_groups {same : Formula → Formula → Prop}
    {rest' inside inside' after after' : List Token} (shape : token.shape = .leftParen)
    (found : closeGroup 0 rest = some (inside, after))
    (found' : closeGroup 0 rest' = some (inside', after'))
    (built : Coincide (List.Forall₂ same) (lines source inside) (lines source inside'))
    (later : ∀ group group', same group group' → Coincide (Formula.Restated o o')
      (chain source (addValue done (.bracket token.site group)) after)
      (chain source (addValue done (.bracket token.site group')) after')) :
    Coincide (Formula.Restated o o') (chain source done (token :: rest))
      (chain source done (token :: rest')) := by
  rw [chain_inside shape found, chain_inside shape found']
  refine built.bind fun groups groups' _ _ alike => ?_
  cases alike with
  | nil => exact .like (.refl _)
  | cons first others =>
    cases others with
    | nil => exact later _ _ first
    | cons => exact .like (.refl _)

end Chains

section Building

variable {tokens tokens' : List Token}

theorem lines_respelled (rewrites : o.Rewrites o')
    (raw : Coincide (List.Forall₂ (Formula.Restated o o')) (rawLines source tokens)
      (rawLines source tokens')) :
    Coincide (List.Forall₂ (Formula.Restated o o')) (lines source tokens)
      (lines source tokens') := by
  rw [lines, lines]
  exact raw.bind fun _ _ _ _ same => restated_finishAll rewrites same

theorem chain_respelled (h : Token.Respelled o o' tokens tokens')
    (lighter : ∀ {inner inner'}, Token.Respelled o o' inner inner' →
      Token.weights inner < Token.weights tokens →
        (∀ done, Coincide (Formula.Restated o o') (chain source done inner)
          (chain source done inner')) ∧
        Coincide (List.Forall₂ (Formula.Restated o o')) (rawLines source inner)
          (rawLines source inner')) (done : Formula) :
    Coincide (Formula.Restated o o') (chain source done tokens) (chain source done tokens') := by
  have rewrites := h.rewrites
  cases h with
  | @here first later later' ends rewritten =>
    -- What ends a value is a token that makes one part, or a closing bracket, which is refused.
    by_cases atom : first.shape.isAtom
    · have one : Atomic source first := atomic_of_isAtom atom
      cases one with
      | fails e failed =>
        rw [failed, failed]
        exact .like (.refl e)
      | adds part value _ added =>
        rw [added, added]
        exact chain_rewritten rewritten (endsInValue_addValue done value)
    · have shape : first.shape = .rightParen := by
        cases shape : first.shape <;> rw [shape] at ends atom <;> first | rfl | contradiction
      rw [chain_closing shape, chain_closing shape]
      exact .like (.refl _)
  | @there token rest rest' respelled =>
    have less := weights_lt_cons token rest
    have next := lighter respelled less
    by_cases atom : token.shape.isAtom
    · have one : Atomic source token := atomic_of_isAtom atom
      cases one with
      | fails e failed =>
        rw [failed, failed]
        exact .like (.refl e)
      | adds part value _ added =>
        rw [added, added]
        exact next.1 _
    cases shape : token.shape with
    | number | name | call | query =>
      rw [shape] at atom
      exact absurd rfl atom
    | separator =>
      rw [chain_ended (.inl shape), chain_ended (.inl shape)]
      exact .ok (Formula.Restated.refl _)
    | definition outline =>
      rw [chain_ended (.inr ⟨outline, shape⟩), chain_ended (.inr ⟨outline, shape⟩)]
      exact .ok (Formula.Restated.refl _)
    | operator operation =>
      cases added : addOperator done ⟨operation, token.site⟩ with
      | error fault =>
        rw [chain_operator_error shape added, chain_operator_error shape added]
        exact .like (.refl _)
      | ok after =>
        rw [chain_operator shape added, chain_operator shape added]
        exact next.1 after
    | rightParen =>
      rw [chain_closing shape, chain_closing shape]
      exact .like (.refl _)
    | equals =>
      rw [chain_equals shape, chain_equals shape]
      exact .like (.refl _)
    | leftParen =>
      have equal (inside : List Token) :
          Coincide (List.Forall₂ (· = ·)) (lines source inside) (lines source inside) :=
        Coincide.refl (fun _ => List.forall₂_same.mpr fun _ _ => rfl) _
      have regrouped := respelled.closeGroup 0
      generalize found : closeGroup 0 rest = split at regrouped
      generalize found' : closeGroup 0 rest' = split' at regrouped
      cases regrouped with
      | unclosed =>
        rw [chain_unclosed shape found, chain_unclosed shape found']
        exact .like (.refl _)
      | @before inside after after' later =>
        have shorter := weights_closeGroup_le found
        refine chain_groups shape found found' (equal inside) fun group group' same => ?_
        subst same
        exact (lighter later (by omega)).1 _
      | @closing inside later later' rewritten =>
        refine chain_groups shape found found' (equal inside) fun group group' same => ?_
        subst same
        exact chain_rewritten rewritten (endsInValue_addValue done rfl)
      | @within inside inside' after inner =>
        have shorter := weights_closeGroup_le found
        have built := lighter inner (by omega)
        refine chain_groups shape found found' (lines_respelled rewrites built.2) ?_
        intro group group' same
        exact chain_restated rewrites after
          (restated_addValue (Formula.Restated.refl done) (.bracket same) rfl)

theorem building_respelled (h : Token.Respelled o o' tokens tokens') :
    (∀ done, Coincide (Formula.Restated o o') (chain source done tokens)
      (chain source done tokens')) ∧
      Coincide (List.Forall₂ (Formula.Restated o o')) (rawLines source tokens)
        (rawLines source tokens') := by
  induction size : Token.weights tokens using Nat.strongRecOn generalizing tokens tokens' with
  | _ n ih =>
    subst size
    have chains : ∀ done, Coincide (Formula.Restated o o') (chain source done tokens)
        (chain source done tokens') :=
      chain_respelled h fun inner less => ih _ less inner rfl
    refine ⟨chains, ?_⟩
    rw [rawLines_eq, rawLines_eq]
    refine (chains []).bind fun formula formula' _ _ same => ?_
    have relined := h.lineEnd 0
    generalize stop : lineEnd 0 tokens = stops at relined
    generalize lineEnd 0 tokens' = stops' at relined
    cases relined with
    | same =>
      cases stops with
      | input => exact .ok (.cons same .nil)
      | separator rest =>
        have others : Coincide (List.Forall₂ (Formula.Restated o o')) (rawLines source rest)
            (rawLines source rest) :=
          Coincide.refl (fun _ => List.forall₂_same.mpr fun line _ => Formula.Restated.refl line) _
        exact others.bind fun _ _ _ _ later => .ok (.cons same later)
      | definition => exact .like (.refl _)
    | separator respelled =>
      have others := (ih _ (weights_separator_lt stop) respelled rfl).2
      exact others.bind fun _ _ _ _ later => .ok (.cons same later)
    | definition => exact .like (.refl _)

end Building

end Formula

namespace Sheet

variable {o o' : Operator} {tokens tokens' : List Token}

theorem readInner_coincide (sheet : Sheet) (h : Token.Respelled o o' tokens tokens') :
    Coincide (List.Forall₂ (Statement.Restated o o')) (sheet.readInner tokens)
      (sheet.readInner tokens') := by
  have built : Coincide (List.Forall₂ (Formula.Restated o o')) (Formula.lines sheet.source tokens)
      (Formula.lines sheet.source tokens') :=
    Formula.lines_respelled h.rewrites (Formula.building_respelled h).2
  refine built.map fun formulas formulas' same => ?_
  rw [List.forall₂_map_left_iff, List.forall₂_map_right_iff]
  exact same.imp fun _ _ => .formula

/-- A multiplication that is left out may as well be written down, and two minus signs after a value
may as well be a plus, at any depth of brackets. Tokens that differ in this are read or refused
alike. What they are read as differs in that one operator only, and evaluated on any sheet in any
scope it has the same value, or an error with the same fault and operands. -/
theorem readInner_respelled (sheet : Sheet) (h : Token.Respelled o o' tokens tokens') :
    ((∃ statements, sheet.readInner tokens = .ok statements) ↔
      ∃ statements, sheet.readInner tokens' = .ok statements) ∧
    ∀ statements statements', sheet.readInner tokens = .ok statements →
      sheet.readInner tokens' = .ok statements' →
        List.Forall₂ (fun statement statement' => statement.Restated o o' statement' ∧
          ∀ (running : Sheet) (scope : Scope), SameOutcome
            (running.evaluate scope statement.body) (running.evaluate scope statement'.body))
          statements statements' := by
  have coincide := sheet.readInner_coincide h
  refine ⟨coincide.ok_iff, fun statements statements' read read' => ?_⟩
  rw [read, read'] at coincide
  cases coincide with
  | ok same =>
    refine same.imp fun statement statement' restated => ⟨restated, fun running scope => ?_⟩
    obtain ⟨restated⟩ := restated
    exact (formulaValue_restated h.rewrites restated).sameOutcome

theorem readInner_respelled_nested :
    let opening : Token := ⟨⟨"(", ⟨0, 1, 1⟩⟩, .leftParen⟩
    let two : Token := ⟨⟨"2", ⟨1, 1, 2⟩⟩, .number 2⟩
    let star : Token := ⟨⟨"*", ⟨2, 1, 3⟩⟩, .operator .multiply⟩
    let angle : Token := ⟨⟨"pi", ⟨2, 1, 3⟩⟩, .name⟩
    let closing : Token := ⟨⟨")", ⟨4, 1, 5⟩⟩, .rightParen⟩
    ∃ statements statements',
      (ofSource "(2pi)" {}).readInner [opening, two, angle, closing] = .ok statements ∧
      (ofSource "(2pi)" {}).readInner [opening, two, star, angle, closing] = .ok statements' ∧
        List.Forall₂ (fun statement statement' =>
          statement.Restated (.implied ⟨2, 1, 3⟩) ⟨.multiply, ⟨"*", ⟨2, 1, 3⟩⟩⟩ statement' ∧
          ∀ (running : Sheet) (scope : Scope), SameOutcome
            (running.evaluate scope statement.body) (running.evaluate scope statement'.body))
          statements statements' := by
  intro opening two star angle closing
  have respelled : Token.Respelled (.implied ⟨2, 1, 3⟩) ⟨.multiply, ⟨"*", ⟨2, 1, 3⟩⟩⟩
      [opening, two, angle, closing] [opening, two, star, angle, closing] := by
    have product : Token.Rewritten (.implied angle.site.place) ⟨.multiply, star.site⟩
        [angle, closing] [star, angle, closing] := .product rfl rfl
    exact .there opening (.here rfl product)
  obtain ⟨accepted, alike⟩ := readInner_respelled (ofSource "(2pi)" {}) respelled
  have reads : ∃ statements,
      (ofSource "(2pi)" {}).readInner [opening, two, angle, closing] = .ok statements := by
    have succeeds :
        ((ofSource "(2pi)" {}).readInner [opening, two, angle, closing]).toOption.isSome := by
      decide +kernel
    cases read : (ofSource "(2pi)" {}).readInner [opening, two, angle, closing] with
    | ok statements => exact ⟨statements, rfl⟩
    | error e =>
      rw [read] at succeeds
      contradiction
  obtain ⟨statements, read⟩ := reads
  obtain ⟨statements', read'⟩ := accepted.mp ⟨statements, read⟩
  exact ⟨statements, statements', read, read', alike _ _ read read'⟩

end Sheet

end FormulaSheet
