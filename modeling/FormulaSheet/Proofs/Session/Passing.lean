import FormulaSheet.Sheet.Run

/-!
One pass over the tokens of a sheet, with the sheet at hand throughout. Definitions, brackets, the
bodies of functions, arguments and terms are all built by the same pass, which is entered again for
each of them; whether definitions may be entered is all that tells the top level apart.
-/

set_option autoImplicit false

namespace FormulaSheet

theorem Token.weights_append (tokens more : List Token) :
    Token.weights (tokens ++ more) = Token.weights tokens + Token.weights more := by
  induction tokens with
  | nil => simp
  | cons token tokens ih =>
    simp only [List.cons_append, Token.weights_cons, ih]
    omega

-- Besides errors, a count of open groups that falls below zero, and a plot among arguments.
inductive Halt where
  | error (error : Error)
  | underflow
  | strayPlot

-- What a sheet goes through. What was changed before a halt stays changed.
def Session (α : Type) : Type :=
  Sheet → Sheet × Except Halt α

structure Group where
  site : Site
  inside : List Token
  depth : Nat

namespace Session

instance : Monad Session where
  pure a := fun sheet => (sheet, .ok a)
  bind x f := fun sheet =>
    match x sheet with
    | (sheet, .ok a) => f a sheet
    | (sheet, .error halt) => (sheet, .error halt)

variable {α : Type}

def current : Session Sheet := fun sheet => (sheet, .ok sheet)

def replace (sheet : Sheet) : Session Unit := fun _ => (sheet, .ok ())

def halt (halt : Halt) : Session α := fun sheet => (sheet, .error halt)

def fail (fault : GrammarFault) (site : Site) : Session α := fun sheet =>
  (sheet, .error (.error (sheet.grammarError fault site)))

def lift (outcome : Except Error α) : Session α := fun sheet =>
  (sheet, outcome.mapError .error)

def recount : Shape → Nat → Session Nat
  | .leftParen, depth => return depth + 1
  | .rightParen, 0 => halt .underflow
  | .rightParen, depth + 1 => return depth
  | _, depth => return depth

def finish (statements : List Statement) : Session (List Statement) := do
  lift (Sheet.finishStatements (← current).source statements)

def formulaOf : Statement → Session Formula
  | .formula formula => return formula
  | .plot _ => halt .strayPlot

mutual

def pass (definitions : Bool) (statements : List Statement) (done : Formula)
    (tokens : List Token) : Session (List Statement) :=
  match tokens with
  | [] => return statements ++ [.formula done.reverse]
  | token :: rest =>
    match _shape : token.shape with
    | .number value =>
      pass definitions statements (Formula.addValue done (.literal token.site value)) rest
    | .name => pass definitions statements (Formula.addValue done (.name token.site)) rest
    | .operator operation =>
      match Formula.addOperator done ⟨operation, token.site⟩ with
      | .ok done => pass definitions statements done rest
      | .error fault => fail fault token.site
    | .leftParen => collect definitions statements done ⟨token.site, [], 1⟩ rest
    | .rightParen => fail .unexpectedClosing token.site
    | .call name arguments => do
      let part ← call ⟨token.site, name.text, .plain⟩ arguments
      pass definitions statements (Formula.addValue done part) rest
    | .query query arguments => do
      let part ← call ⟨token.site, "s", .query query⟩ arguments
      pass definitions statements (Formula.addValue done part) rest
    | .separator => pass definitions (statements ++ [.formula done.reverse]) [] rest
    | .equals => fail .unexpectedEquals token.site
    | .definition outline =>
      if !definitions then fail (Formula.notAllowed outline) token.site
      else if !done.isEmpty then fail .unexpectedDefinition token.site
      else do
        let defined ← enter token.site outline
        pass definitions (statements ++ defined) [] (Sheet.skipSeparator rest)
termination_by (5 * Token.weights tokens, 0)
decreasing_by
  all_goals
    simp only [Prod.lex_def, Token.weights_cons, Token.weights_nil, Token.weight, Shape.captured,
      _shape, Shape.captures, Capture.totalLength]
  all_goals try have := Sheet.weights_skipSeparator_le rest
  all_goals omega

def collect (definitions : Bool) (statements : List Statement) (done : Formula) (group : Group)
    (tokens : List Token) : Session (List Statement) :=
  match tokens with
  | [] => fail .unclosedBracket group.site
  | token :: rest => do
    let depth ← recount token.shape group.depth
    if 0 < depth then
      collect definitions statements done ⟨group.site, group.inside ++ [token], depth⟩ rest
    else
      let part ← bracket group.site group.inside
      pass definitions statements (Formula.addValue done part) rest
termination_by (5 * (Token.weights group.inside + Token.weights tokens), tokens.length)
decreasing_by
  all_goals
    have := token.weight_pos
    simp only [Prod.lex_def, Token.weights_append, Token.weights_cons, Token.weights_nil,
      List.length_cons]
    omega

def inner (tokens : List Token) : Session (List Statement) := do
  finish (← pass false [] [] tokens)
termination_by (5 * Token.weights tokens + 1, 0)
decreasing_by
  simp only [Prod.lex_def]
  omega

def bracket (site : Site) (inside : List Token) : Session Part := do
  if inside.isEmpty then fail .emptyBrackets site
  else
    match ← inner inside with
    | [.formula formula] => return .bracket site formula
    | [] => fail .emptyBrackets site
    | _ => fail .severalInBrackets site
termination_by (5 * Token.weights inside + 2, 0)
decreasing_by
  simp only [Prod.lex_def]
  omega

def part (grammar : Token.Grammar) (capture : Capture) : Session (List Statement) := do
  let reading := Token.read grammar (← current).source capture.offset capture.stop
  match reading.failure with
  | some error => halt (.error error)
  | none => inner reading.tokens
termination_by (5 * capture.byteLength + 2, 0)
decreasing_by
  have := Token.weights_read_le grammar (‹Sheet›).source capture.offset capture.stop
  have : capture.stop - capture.offset = capture.byteLength := by simp [Capture.stop]
  simp only [Prod.lex_def]
  omega

def arguments (capture : Capture) : Session (List Formula) := do
  (← part .arguments capture).mapM formulaOf
termination_by (5 * capture.byteLength + 3, 0)

def call (callee : Callee) (capture : Capture) : Session Part := do
  return .call callee (← arguments capture)
termination_by (5 * capture.byteLength + 4, 0)

def body (site : Site) (capture : Capture) : Session Formula := do
  match ← part .statements capture with
  | [.formula formula] => return formula
  | [] => fail .emptyBody site
  | _ => fail .malformedBody site
termination_by (5 * capture.byteLength + 3, 0)

def enter (site : Site) (outline : Outline) : Session (List Statement) :=
  match _outline : outline with
  | .function name parameters capture => do
    if (← current).sequence?.isSome ∧ (name.text = "S" ∨ name.text = "s") then
      fail (.reservedName name.text) site
    else
      match Sheet.readParameters name.text parameters.text.toList with
      | .error fault => fail fault site
      | .ok parameters =>
        let formula ← body site capture
        let sheet ← current
        replace { sheet with
          symbols := sheet.symbols.define name.text (.user ⟨name.text, parameters, formula⟩) }
        return []
  | .plot capture => do
    let formula ← body site capture
    let sheet ← current
    replace { sheet with symbols := sheet.symbols.define "y" (.plot ⟨"y", ["x"], formula⟩) }
    return [.plot ⟨"y", ["x"], formula⟩]
  | .sequence first second third => do
    let sheet ← current
    if sheet.sequence?.isSome ∨ sheet.symbols.contains "S" ∨ sheet.symbols.contains "s" then
      fail .sequenceRepeated site
    else
      replace { sheet with
        symbols := (sheet.symbols.define "S" .sequence).define "s" .sequence
        sequence? := some { site, first, second, third } }
      return []
termination_by (5 * Capture.totalLength outline.captures + 4, 0)
decreasing_by
  all_goals
    simp only [Prod.lex_def, Outline.captures, Capture.totalLength]
    omega

end

def term (site : Site) (capture : Capture) : Session Float := do
  match ← arguments capture with
  | [formula] =>
    let sheet ← current
    lift do
      Sheet.checkFormula sheet [] false formula
      sheet.evaluate .empty formula
  | _ => fail (.malformedTerm (String.ofList (Text.trim capture.text.toList))) site

def validate (statements : List Statement) : Session Unit := fun sheet =>
  let (sheet, outcome) := sheet.check statements
  (sheet, outcome.mapError .error)

def traverse (definitions : Bool) (tokens : List Token) : Session (List Statement) := do
  let statements ← pass definitions [] [] tokens
  if definitions then validate statements
  finish statements

end Session

end FormulaSheet
