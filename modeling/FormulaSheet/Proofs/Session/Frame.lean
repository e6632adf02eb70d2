import FormulaSheet.Proofs.Grammar.Building
import FormulaSheet.Proofs.Reachable
import FormulaSheet.Proofs.Session.Passing

set_option autoImplicit false

namespace FormulaSheet.Session

open Formula (LineEnd chain captured lines rawLines lineEnd closeGroup addValue finishAll)

section Laws

variable {α β : Type} {sheet next : Sheet}

theorem bind_ok {x : Session α} {a : α} (h : x sheet = (next, .ok a)) (f : α → Session β) :
    (x >>= f) sheet = f a next := by
  simp only [bind, h]

theorem bind_error {x : Session α} {cause : Halt} (h : x sheet = (next, .error cause))
    (f : α → Session β) : (x >>= f) sheet = (next, .error cause) := by
  simp only [bind, h]

theorem bind_at {x y : Session α} (same : x sheet = y next) (f : α → Session β) :
    (x >>= f) sheet = (y >>= f) next := by
  simp only [bind, same]

instance : LawfulMonad Session := LawfulMonad.mk' Session
  (by
    intro α x
    funext sheet
    rcases found : x sheet with ⟨next, _ | _⟩
    · exact bind_error found _
    · exact bind_ok found _)
  (fun _ _ => rfl)
  (by
    intro α β γ x f g
    funext sheet
    rcases found : x sheet with ⟨next, _ | _⟩
    · rw [bind_error found, bind_error (bind_error found f)]
    · exact (bind_at (bind_ok found f) g).trans (bind_ok found fun a => f a >>= g).symm)

theorem lift_map (x : Except Error α) (f : α → β) :
    (lift (x.map f) : Session β) = lift x >>= fun a => pure (f a) := by
  cases x <;> rfl

end Laws

section Equations

variable {definitions : Bool} {statements : List Statement} {done : Formula} {token : Token}
  {rest : List Token}

theorem pass_nil :
    pass definitions statements done [] = pure (statements ++ [.formula done.reverse]) := by
  rw [pass]

theorem pass_cons :
    pass definitions statements done (token :: rest) = match token.shape with
      | .number value =>
        pass definitions statements (addValue done (.literal token.site value)) rest
      | .name => pass definitions statements (addValue done (.name token.site)) rest
      | .operator operation =>
        match Formula.addOperator done ⟨operation, token.site⟩ with
        | .ok done => pass definitions statements done rest
        | .error fault => fail fault token.site
      | .leftParen => collect definitions statements done ⟨token.site, [], 1⟩ rest
      | .rightParen => fail .unexpectedClosing token.site
      | .call name arguments =>
        call ⟨token.site, name.text, .plain⟩ arguments >>= fun part =>
          pass definitions statements (addValue done part) rest
      | .query query arguments =>
        call ⟨token.site, "s", .query query⟩ arguments >>= fun part =>
          pass definitions statements (addValue done part) rest
      | .separator => pass definitions (statements ++ [.formula done.reverse]) [] rest
      | .equals => fail .unexpectedEquals token.site
      | .definition outline =>
        if !definitions then fail (Formula.notAllowed outline) token.site
        else if !done.isEmpty then fail .unexpectedDefinition token.site
        else
          enter token.site outline >>= fun defined =>
            pass definitions (statements ++ defined) [] (Sheet.skipSeparator rest) := by
  rw [pass]
  cases token.shape <;> rfl

def closed (definitions : Bool) (statements : List Statement) (done : Formula) (site : Site)
    (inside : List Token) : Option (List Token × List Token) → Session (List Statement)
  | none => fail .unclosedBracket site
  | some (more, after) => bracket site (inside ++ more) >>= fun part =>
    pass definitions statements (addValue done part) after

theorem collect_eq {site : Site} {inside tokens : List Token} {depth : Nat} :
    collect definitions statements done ⟨site, inside, depth + 1⟩ tokens =
      closed definitions statements done site inside (closeGroup depth tokens) := by
  induction tokens generalizing inside depth with
  | nil =>
    rw [collect]
    rfl
  | cons token rest ih =>
    have kept {n : Nat} (counted : recount token.shape (depth + 1) = pure (n + 1)) :
        collect definitions statements done ⟨site, inside, depth + 1⟩ (token :: rest) =
          closed definitions statements done site inside
            ((closeGroup n rest).map (Prod.map (token :: ·) id)) := by
      rw [collect, counted, pure_bind, if_pos (Nat.succ_pos n), ih]
      cases closeGroup n rest with
      | none => rfl
      | some split => simp only [closed, Option.map_some, Prod.map, List.append_assoc,
          List.cons_append, List.nil_append, id]
    cases shape : token.shape with
    | leftParen =>
      simp only [closeGroup, shape]
      exact kept (by rw [shape]; rfl)
    | rightParen =>
      simp only [closeGroup, shape]
      cases depth with
      | zero =>
        rw [collect, shape]
        simp only [recount, pure_bind, closed, List.append_nil, Nat.lt_irrefl, if_false]
      | succ depth => exact kept (by rw [shape]; rfl)
    | _ =>
      simp only [closeGroup, shape]
      exact kept (by rw [shape]; rfl)

end Equations

section Building

variable {definitions : Bool} {statements : List Statement}

def resume (definitions : Bool) (statements : List Statement) (formula : Formula) :
    LineEnd → Session (List Statement)
  | .input => pure (statements ++ [.formula formula])
  | .separator rest => pass definitions (statements ++ [.formula formula]) [] rest
  | .definition site outline rest =>
    if !definitions then fail (Formula.notAllowed outline) site
    else if !formula.isEmpty then fail .unexpectedDefinition site
    else
      enter site outline >>= fun defined =>
        pass definitions (statements ++ defined) [] (Sheet.skipSeparator rest)

theorem finishStatements_formulas (source : String) (formulas : List Formula) :
    Sheet.finishStatements source (formulas.map .formula) =
      (finishAll source formulas).map (·.map .formula) := by
  induction formulas with
  | nil => rfl
  | cons formula formulas ih =>
    cases formula with
    | nil =>
      simp only [List.map_cons, Sheet.finishStatements, ih]
      rfl
    | cons part rest =>
      simp only [List.map_cons, Sheet.finishStatements, ih]
      simp only [finishAll, List.filter_cons]
      simp only [List.isEmpty_cons, Bool.not_false, if_true, List.mapM_cons]
      cases Formula.finish source (part :: rest) with
      | error => rfl
      | ok finished =>
        cases List.mapM (Formula.finish source) (formulas.filter (!·.isEmpty)) <;> rfl

theorem lines_nil (source : String) : lines source [] = .ok [] := by
  have first : chain source [] [] = .ok [] := by
    rw [chain]
    rfl
  exact Formula.lines_ok.mpr ⟨[[]], Formula.rawLines_ok.mpr ⟨[], first, .inl ⟨rfl, rfl⟩⟩, rfl⟩

theorem bracket_eq {sheet : Sheet} {site : Site} {inside : List Token}
    (built : inner inside sheet = lift ((lines sheet.source inside).map (·.map .formula)) sheet) :
    bracket site inside sheet = lift (lines sheet.source inside >>= fun groups =>
      match groups with
      | [group] => .ok (.bracket site group)
      | [] => .error (.grammar .emptyBrackets (site.locate sheet.source))
      | _ => .error (.grammar .severalInBrackets (site.locate sheet.source))) sheet := by
  rw [bracket]
  split
  next empty =>
    obtain rfl := List.isEmpty_iff.mp empty
    rw [lines_nil]
    rfl
  · rw [bind_at built]
    cases lines sheet.source inside with
    | error => rfl
    | ok groups =>
      rcases groups with _ | ⟨group, _ | ⟨_, _⟩⟩ <;> rfl

theorem arguments_eq {sheet : Sheet} {capture : Capture}
    (built : part .arguments capture sheet =
      lift ((captured sheet.source .arguments capture).map (·.map .formula)) sheet) :
    arguments capture sheet = lift (captured sheet.source .arguments capture) sheet := by
  have plain (formulas : List Formula) :
      (formulas.map Statement.formula).mapM formulaOf = pure formulas := by
    induction formulas with
    | nil => rfl
    | cons formula formulas ih =>
      rw [List.map_cons, List.mapM_cons, ih]
      rfl
  rw [arguments, bind_at built]
  cases captured sheet.source .arguments capture with
  | error => rfl
  | ok formulas => exact congrFun (plain formulas) sheet

theorem call_eq {sheet : Sheet} {callee : Callee} {capture : Capture}
    (built : part .arguments capture sheet =
      lift ((captured sheet.source .arguments capture).map (·.map .formula)) sheet) :
    call callee capture sheet =
      lift ((captured sheet.source .arguments capture).map (.call callee ·)) sheet := by
  rw [call, bind_at (arguments_eq built), lift_map]

theorem part_eq {sheet : Sheet} {grammar : Token.Grammar} {capture : Capture} :
    part grammar capture sheet =
      match (Token.read grammar sheet.source capture.offset capture.stop).failure with
      | some error => halt (.error error) sheet
      | none => inner (Token.read grammar sheet.source capture.offset capture.stop).tokens sheet := by
  rw [part, bind_ok (show current sheet = (sheet, .ok sheet) from rfl)]
  cases (Token.read grammar sheet.source capture.offset capture.stop).failure <;> rfl

/-- A pass builds a formula as `chain` does, and goes on where it ends. Below the top level all of
it is building, and the sheet stays as it was. -/
theorem pass_builds (source : String) :
    (∀ done tokens definitions statements sheet, sheet.source = source →
      pass definitions statements done tokens sheet =
        (lift (chain source done tokens) >>= fun formula =>
          resume definitions statements formula (lineEnd 0 tokens)) sheet) ∧
    (∀ grammar capture sheet, sheet.source = source →
      part grammar capture sheet =
        lift ((captured source grammar capture).map (·.map .formula)) sheet) ∧
    (∀ tokens sheet, sheet.source = source →
      inner tokens sheet = lift ((lines source tokens).map (·.map .formula)) sheet) ∧
    ∀ tokens statements sheet, sheet.source = source →
      pass false statements [] tokens sheet =
        lift ((rawLines source tokens).map fun raw => statements ++ raw.map .formula) sheet := by
  -- The induction is that of building, where no sheet is passed along.
  refine Formula.chain.mutual_induct source
    (fun done tokens => ∀ definitions statements sheet, sheet.source = source →
      pass definitions statements done tokens sheet =
        (lift (chain source done tokens) >>= fun formula =>
          resume definitions statements formula (lineEnd 0 tokens)) sheet)
    (fun grammar capture => ∀ sheet, sheet.source = source →
      part grammar capture sheet =
        lift ((captured source grammar capture).map (·.map .formula)) sheet)
    (fun tokens => ∀ sheet, sheet.source = source →
      inner tokens sheet = lift ((lines source tokens).map (·.map .formula)) sheet)
    (fun tokens => ∀ statements sheet, sheet.source = source →
      pass false statements [] tokens sheet =
        lift ((rawLines source tokens).map fun raw => statements ++ raw.map .formula) sheet)
    ?nil ?separator ?definition ?number ?name ?operator ?refused ?unclosed ?group ?closing ?equals
    ?call ?query ?unread ?read ?lines ?rawLines
  case nil =>
    intro done definitions statements sheet _
    rw [pass_nil, chain]
    rfl
  case separator =>
    intro done token rest shape definitions statements sheet _
    rw [pass_cons, Formula.chain_ended (.inl shape)]
    simp only [shape, lineEnd]
    rfl
  case definition =>
    intro done token rest outline shape definitions statements sheet _
    rw [pass_cons, Formula.chain_ended (.inr ⟨outline, shape⟩)]
    simp only [shape, lineEnd, if_true]
    change _ = resume definitions statements done.reverse (.definition token.site outline rest) sheet
    simp only [resume, List.isEmpty_reverse]
  case number =>
    intro done token rest value shape ih definitions statements sheet same
    rw [pass_cons, Formula.chain_number shape]
    simp only [shape, lineEnd]
    exact ih definitions statements sheet same
  case name =>
    intro done token rest shape ih definitions statements sheet same
    rw [pass_cons, Formula.chain_name shape]
    simp only [shape, lineEnd]
    exact ih definitions statements sheet same
  case operator =>
    intro done token rest operation shape after added ih definitions statements sheet same
    rw [pass_cons, Formula.chain_operator shape added]
    simp only [shape, lineEnd, added]
    exact ih definitions statements sheet same
  case refused =>
    rintro done token rest operation shape fault refused definitions statements sheet rfl
    rw [pass_cons, Formula.chain_operator_error shape refused]
    simp only [shape, refused]
    rfl
  case unclosed =>
    rintro done token rest shape unclosed definitions statements sheet rfl
    rw [pass_cons, Formula.chain_unclosed shape unclosed]
    simp only [shape, collect_eq, unclosed, closed]
    rfl
  case group =>
    rintro done token rest shape inside after found ihInside ih definitions statements sheet rfl
    obtain ⟨closing, rfl, closes, nested⟩ := closeGroup_eq_some found
    rw [pass_cons, Formula.chain_inside shape found, lineEnd_group shape closes nested]
    simp only [shape, collect_eq, found, closed, List.nil_append]
    rw [bind_at (bracket_eq (ihInside sheet rfl))]
    cases lines sheet.source inside with
    | error => rfl
    | ok groups =>
      rcases groups with _ | ⟨group, _ | ⟨_, _⟩⟩
      · rfl
      · exact ih group definitions statements sheet rfl
      · rfl
  case closing =>
    rintro done token rest shape definitions statements sheet rfl
    rw [pass_cons, Formula.chain_closing shape]
    simp only [shape]
    rfl
  case equals =>
    rintro done token rest shape definitions statements sheet rfl
    rw [pass_cons, Formula.chain_equals shape]
    simp only [shape]
    rfl
  case call =>
    rintro done token rest callee capture shape ihArguments ih definitions statements sheet rfl
    rw [pass_cons, Formula.chain_call shape]
    simp only [shape, lineEnd]
    rw [bind_at (call_eq (ihArguments sheet rfl))]
    cases captured sheet.source .arguments capture with
    | error => rfl
    | ok values => exact ih values definitions statements sheet rfl
  case query =>
    rintro done token rest query capture shape ihArguments ih definitions statements sheet rfl
    rw [pass_cons, Formula.chain_query shape]
    simp only [shape, lineEnd]
    rw [bind_at (call_eq (ihArguments sheet rfl))]
    cases captured sheet.source .arguments capture with
    | error => rfl
    | ok values => exact ih values definitions statements sheet rfl
  case unread =>
    rintro grammar capture reading error failed sheet rfl
    rw [part_eq, captured, failed]
    rfl
  case read =>
    rintro grammar capture reading read ih sheet rfl
    rw [part_eq, captured, read]
    exact ih sheet rfl
  case lines =>
    rintro tokens ih sheet rfl
    rw [inner, bind_at (ih [] sheet rfl), lines]
    cases rawLines sheet.source tokens with
    | error => rfl
    | ok raw =>
      change lift (Sheet.finishStatements sheet.source (raw.map .formula)) sheet = _
      rw [finishStatements_formulas]
      rfl
  case rawLines =>
    rintro tokens ih later statements sheet rfl
    rw [ih false statements sheet rfl, Formula.rawLines_eq]
    cases chain sheet.source [] tokens with
    | error => rfl
    | ok formula =>
      cases stop : lineEnd 0 tokens with
      | input => rfl
      | separator rest =>
        refine (later rest stop _ sheet rfl).trans ?_
        change _ = lift (Except.map _
          (rawLines sheet.source rest >>= fun others => .ok (formula :: others))) sheet
        cases rawLines sheet.source rest with
        | error => rfl
        | ok others =>
          change lift (.ok _) sheet = lift (.ok _) sheet
          simp only [List.map_cons, List.append_assoc, List.cons_append, List.nil_append]
      | definition site outline rest => rfl

end Building

section Entering

variable (site : Site)

theorem part_eq_captured (sheet : Sheet) (grammar : Token.Grammar) (capture : Capture) :
    part grammar capture sheet =
      lift ((captured sheet.source grammar capture).map (·.map .formula)) sheet :=
  (pass_builds sheet.source).2.1 grammar capture sheet rfl

theorem body_eq (capture : Capture) (sheet : Sheet) :
    body site capture sheet = lift (sheet.readBody site capture) sheet := by
  rw [body, bind_at (part_eq_captured sheet .statements capture), Sheet.readBody]
  cases captured sheet.source .statements capture with
  | error => rfl
  | ok formulas =>
    rcases formulas with _ | ⟨_, _ | ⟨_, _⟩⟩ <;> rfl

theorem term_eq (capture : Capture) (sheet : Sheet) :
    term site capture sheet = lift (sheet.termValue site capture) sheet := by
  have built := arguments_eq (part_eq_captured sheet .arguments capture)
  rw [term, bind_at built, Sheet.termValue]
  cases captured sheet.source .arguments capture with
  | error => rfl
  | ok formulas =>
    rcases formulas with _ | ⟨_, _ | ⟨_, _⟩⟩ <;> rfl

theorem enter_eq (outline : Outline) (sheet : Sheet) :
    enter site outline sheet = match sheet.define site outline with
      | .ok (next, defined) => (next, .ok defined)
      | .error e => (sheet, .error (.error e)) := by
  cases outline with
  | function name parameters capture =>
    rw [enter, bind_ok (show current sheet = (sheet, .ok sheet) from rfl)]
    simp only [Sheet.define, Sheet.defineFunction]
    split
    · rfl
    · cases Sheet.readParameters name.text parameters.text.toList with
      | error => rfl
      | ok names =>
        change (body site capture >>= _) sheet = _
        rw [bind_at (body_eq site capture sheet)]
        cases sheet.readBody site capture <;> rfl
  | plot capture =>
    rw [enter, bind_at (body_eq site capture sheet)]
    simp only [Sheet.define, Sheet.plotOf]
    cases sheet.readBody site capture <;> rfl
  | sequence first second third =>
    rw [enter, bind_ok (show current sheet = (sheet, .ok sheet) from rfl)]
    simp only [Sheet.define, Sheet.defineSequence]
    split <;> rfl

theorem pass_enters (tokens : List Token) (statements : List Statement) (sheet : Sheet) :
    pass true statements [] tokens sheet = ((sheet.rawStatements tokens).1,
      ((sheet.rawStatements tokens).2.map (statements ++ ·)).mapError .error) := by
  have builds (sheet : Sheet) (tokens : List Token) (statements : List Statement) :=
    (pass_builds sheet.source).1 [] tokens true statements sheet rfl
  fun_induction Sheet.rawStatements sheet tokens generalizing statements with
  | case1 sheet tokens e failed =>
    rw [builds, failed]
    rfl
  | case2 sheet tokens formula found stop =>
    rw [builds, found, stop]
    rfl
  | case3 sheet tokens formula found rest stop next others read ih =>
    rw [builds, found, stop]
    change pass true (statements ++ [.formula formula]) [] rest sheet = _
    rw [ih, read]
    cases others with
    | error => rfl
    | ok others =>
      change (next, Except.ok (_ ++ others)) = (next, Except.ok (statements ++ (_ :: others)))
      rw [List.append_assoc]
      rfl
  | case4 sheet tokens formula found site outline rest stop filled =>
    rw [builds, found, stop]
    change resume true statements formula (.definition site outline rest) sheet = _
    simp only [resume, filled]
    rfl
  | case5 sheet tokens formula found site outline rest stop empty e failed =>
    rw [builds, found, stop]
    change resume true statements formula (.definition site outline rest) sheet = _
    simp only [resume, empty]
    have halted : enter site outline sheet = (sheet, .error (.error e)) := by
      rw [enter_eq, failed]
    exact bind_error halted _
  | case6 sheet tokens formula found site outline rest stop empty next defined entered last others
      read ih =>
    rw [builds, found, stop]
    change resume true statements formula (.definition site outline rest) sheet = _
    simp only [resume, empty]
    have went : enter site outline sheet = (next, .ok defined) := by
      rw [enter_eq, entered]
    refine (bind_ok went _).trans ?_
    rw [ih, read]
    cases others with
    | error => rfl
    | ok others =>
      change (last, Except.ok (_ ++ others)) = (last, Except.ok (statements ++ (defined ++ others)))
      rw [List.append_assoc]

theorem traverse_top (tokens : List Token) (sheet : Sheet) :
    traverse true tokens sheet = ((sheet.readTokens tokens).1,
      (sheet.readTokens tokens).2.mapError .error) := by
  have entered := pass_enters tokens [] sheet
  rw [traverse, Sheet.readTokens]
  rcases read : sheet.rawStatements tokens with ⟨next, _ | statements⟩
  · rw [read] at entered
    exact bind_error entered _
  · rw [read] at entered
    refine (bind_ok entered _).trans ?_
    change (validate statements >>= fun _ => finish statements) next = _
    have validated : validate statements next = ((next.check statements).1,
      (next.check statements).2.mapError .error) := rfl
    rcases checked : next.check statements with ⟨last, e | _⟩
    · rw [checked] at validated
      simp only [bind_error validated, checked]
      rfl
    · rw [checked] at validated
      simp only [bind_ok validated, checked]
      rfl

theorem traverse_below (tokens : List Token) (sheet : Sheet) :
    traverse false tokens sheet = (sheet, (sheet.readInner tokens).mapError .error) := by
  have built := (pass_builds sheet.source).2.2.1 tokens sheet rfl
  rw [inner] at built
  exact built

end Entering

-- The outcome is found from the sheet alone, and the sheet is left as it was.
def Answers {α : Type} (x : Session α) (outcome : Sheet → Except Error α) : Prop :=
  ∀ sheet, x sheet = (sheet, (outcome sheet).mapError .error)

/-- Nothing below the top level defines anything: whatever the tokens are, and whether building
succeeds or fails, the sheet stays as it was. It is the same pass that enters the definitions of a
sheet when it is run at the top level. -/
theorem only_top_level_defines (tokens : List Token) (site : Site) (callee : Callee)
    (capture : Capture) :
    Answers (traverse false tokens) (·.readInner tokens) ∧
    (∀ sheet, (bracket site tokens sheet).1 = sheet) ∧
    Answers (arguments capture) (fun sheet => captured sheet.source .arguments capture) ∧
    Answers (call callee capture) (fun sheet =>
      (captured sheet.source .arguments capture).map (.call callee ·)) ∧
    Answers (body site capture) (·.readBody site capture) ∧
    Answers (term site capture) (·.termValue site capture) ∧
    ∀ sheet, traverse true tokens sheet =
      ((sheet.readTokens tokens).1, (sheet.readTokens tokens).2.mapError .error) := by
  refine ⟨traverse_below tokens, ?bracket, ?arguments, ?call, body_eq site capture,
    term_eq site capture, traverse_top tokens⟩
  case bracket =>
    intro sheet
    rw [bracket_eq ((pass_builds sheet.source).2.2.1 tokens sheet rfl)]
    rfl
  case arguments => exact fun sheet => arguments_eq (part_eq_captured sheet .arguments capture)
  case call => exact fun sheet => call_eq (part_eq_captured sheet .arguments capture)

end FormulaSheet.Session
