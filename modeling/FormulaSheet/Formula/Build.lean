import FormulaSheet.Formula.Basic
import FormulaSheet.Token.Lexer

set_option autoImplicit false

namespace FormulaSheet.Formula

inductive LineEnd where
  | input
  | separator (rest : List Token)
  | definition (site : Site) (outline : Outline) (rest : List Token)

def lineEnd : Nat → List Token → LineEnd
  | _, [] => .input
  | depth, token :: rest =>
    match token.shape with
    | .separator => if depth = 0 then .separator rest else lineEnd depth rest
    | .definition outline =>
      if depth = 0 then .definition token.site outline rest else lineEnd depth rest
    | .leftParen => lineEnd (depth + 1) rest
    | .rightParen => lineEnd (depth - 1) rest
    | _ => lineEnd depth rest

theorem weights_separator_lt {depth : Nat} {tokens rest : List Token}
    (h : lineEnd depth tokens = .separator rest) : Token.weights rest < Token.weights tokens := by
  fun_induction lineEnd depth tokens with
  | case1 | case4 => contradiction
  | case2 token =>
    cases h
    have := token.weight_pos
    simp only [Token.weights_cons]
    omega
  | case3 _ token _ _ _ ih | case5 _ token _ _ _ _ ih | case6 _ token _ _ ih
  | case7 _ token _ _ ih | case8 _ token _ _ _ _ _ ih =>
    have := ih h
    simp only [Token.weights_cons]
    omega

theorem weights_definition_lt {depth : Nat} {tokens rest : List Token} {site : Site}
    {outline : Outline} (h : lineEnd depth tokens = .definition site outline rest) :
    Token.weights rest < Token.weights tokens := by
  fun_induction lineEnd depth tokens with
  | case1 | case2 => contradiction
  | case4 token =>
    cases h
    have := token.weight_pos
    simp only [Token.weights_cons]
    omega
  | case3 _ token _ _ _ ih | case5 _ token _ _ _ _ ih | case6 _ token _ _ ih
  | case7 _ token _ _ ih | case8 _ token _ _ _ _ _ ih =>
    have := ih h
    simp only [Token.weights_cons]
    omega

-- Splits at the bracket that closes the group the tokens are in.
def closeGroup : Nat → List Token → Option (List Token × List Token)
  | _, [] => none
  | depth, token :: rest =>
    let inside (depth : Nat) :=
      (closeGroup depth rest).map fun (inside, after) => (token :: inside, after)
    match token.shape with
    | .leftParen => inside (depth + 1)
    | .rightParen =>
      match depth with
      | 0 => some ([], rest)
      | depth + 1 => inside depth
    | _ => inside depth

theorem weights_closeGroup_le {depth : Nat} {tokens inside rest : List Token}
    (h : closeGroup depth tokens = some (inside, rest)) :
    Token.weights inside + Token.weights rest ≤ Token.weights tokens := by
  induction tokens generalizing depth inside with
  | nil => contradiction
  | cons token tokens ih =>
    have step {n : Nat} {inside : List Token}
        (h : (closeGroup n tokens).map (fun (inside, after) => (token :: inside, after)) =
          some (inside, rest)) :
        Token.weights inside + Token.weights rest ≤ Token.weights (token :: tokens) := by
      simp only [Option.map_eq_some_iff, Prod.mk.injEq, Prod.exists] at h
      obtain ⟨a, b, hab, rfl, rfl⟩ := h
      have := ih hab
      simp only [Token.weights_cons]
      omega
    simp only [closeGroup] at h
    split at h
    · exact step h
    · split at h
      · cases h
        simp
      · exact step h
    · exact step h

def finish (source : String) (formula : Formula) : Except Error Formula :=
  let folded := formula.foldSign
  match folded.getLast? with
  | some (.operator o) => .error (.grammar (.missingOperand o.operation) (o.site.locate source))
  | _ => .ok folded

def finishAll (source : String) (formulas : List Formula) : Except Error (List Formula) :=
  (formulas.filter (!·.isEmpty)).mapM (finish source)

def notAllowed : Outline → GrammarFault
  | .sequence .. => .sequenceNotAllowed
  | _ => .functionNotAllowed

mutual

def chain (source : String) (done : Formula) (tokens : List Token) : Except Error Formula :=
  match tokens with
  | [] => .ok done.reverse
  | token :: rest =>
    let fail (fault : GrammarFault) : Except Error Formula :=
      .error (.grammar fault (token.site.locate source))
    match _shape : token.shape with
    | .separator | .definition _ => .ok done.reverse
    | .number value => chain source (addValue done (.literal token.site value)) rest
    | .name => chain source (addValue done (.name token.site)) rest
    | .operator operation =>
      match addOperator done ⟨operation, token.site⟩ with
      | .ok done => chain source done rest
      | .error fault => fail fault
    | .leftParen =>
      match _group : closeGroup 0 rest with
      | none => fail .unclosedBracket
      | some (inside, after) => do
        match ← lines source inside with
        | [formula] => chain source (addValue done (.bracket token.site formula)) after
        | [] => fail .emptyBrackets
        | _ => fail .severalInBrackets
    | .rightParen => fail .unexpectedClosing
    | .equals => fail .unexpectedEquals
    | .call callee arguments => do
      let arguments ← captured source .arguments arguments
      chain source (addValue done (.call ⟨token.site, callee.text, .plain⟩ arguments)) rest
    | .query query arguments => do
      let arguments ← captured source .arguments arguments
      chain source (addValue done (.call ⟨token.site, "s", .query query⟩ arguments)) rest
termination_by 4 * Token.weights tokens
decreasing_by
  all_goals simp only [Token.weights_cons, Token.weight, Shape.captured, _shape, Shape.captures,
    Capture.totalLength]
  all_goals try have := weights_closeGroup_le _group
  all_goals simp
  all_goals omega

def rawLines (source : String) (tokens : List Token) : Except Error (List Formula) := do
  let formula ← chain source [] tokens
  match _stop : lineEnd 0 tokens with
  | .input => return [formula]
  | .separator rest => return formula :: (← rawLines source rest)
  | .definition site outline _ => throw (.grammar (notAllowed outline) (site.locate source))
termination_by 4 * Token.weights tokens + 1
decreasing_by
  · omega
  · have := weights_separator_lt _stop
    omega

def lines (source : String) (tokens : List Token) : Except Error (List Formula) := do
  finishAll source (← rawLines source tokens)
termination_by 4 * Token.weights tokens + 2

def captured (source : String) (grammar : Token.Grammar) (capture : Capture) :
    Except Error (List Formula) :=
  let reading := Token.read grammar source capture.offset capture.stop
  match reading.failure with
  | some error => .error error
  | none => lines source reading.tokens
termination_by 4 * capture.byteLength + 3
decreasing_by
  have := Token.weights_read_le grammar source capture.offset capture.stop
  have : capture.stop - capture.offset = capture.byteLength := by simp [Capture.stop]
  omega

end

end FormulaSheet.Formula
