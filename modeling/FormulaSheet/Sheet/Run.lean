import FormulaSheet.Sheet.Check
import FormulaSheet.Sheet.Define

set_option autoImplicit false

namespace FormulaSheet.Sheet

-- The line break after a definition belongs to it.
def skipSeparator : List Token → List Token
  | [] => []
  | token :: rest =>
    match token.shape with
    | .separator => rest
    | _ => token :: rest

theorem weights_skipSeparator_le (tokens : List Token) :
    Token.weights (skipSeparator tokens) ≤ Token.weights tokens := by
  cases tokens with
  | nil => simp [skipSeparator]
  | cons token rest =>
    simp only [skipSeparator]
    split <;> simp

def rawStatements (sheet : Sheet) (tokens : List Token) : Sheet × Except Error (List Statement) :=
  match Formula.chain sheet.source [] tokens with
  | .error e => (sheet, .error e)
  | .ok formula =>
    match _stop : Formula.lineEnd 0 tokens with
    | .input => (sheet, .ok [.formula formula])
    | .separator rest =>
      let (sheet, statements) := sheet.rawStatements rest
      (sheet, statements.map (.formula formula :: ·))
    | .definition site outline rest =>
      if !formula.isEmpty then
        (sheet, .error (sheet.grammarError .unexpectedDefinition site))
      else
        match sheet.define site outline with
        | .error e => (sheet, .error e)
        | .ok (sheet, defined) =>
          let (sheet, statements) := sheet.rawStatements (skipSeparator rest)
          (sheet, statements.map (defined ++ ·))
termination_by Token.weights tokens
decreasing_by
  · exact Formula.weights_separator_lt _stop
  · have := Formula.weights_definition_lt _stop
    have := weights_skipSeparator_le rest
    omega

def finishStatements (source : String) : List Statement → Except Error (List Statement)
  | [] => return []
  | .formula [] :: rest => finishStatements source rest
  | .formula formula :: rest => do
    let formula ← formula.finish source
    return .formula formula :: (← finishStatements source rest)
  | .plot definition :: rest => return .plot definition :: (← finishStatements source rest)

def readTokens (sheet : Sheet) (tokens : List Token) : Sheet × Except Error (List Statement) :=
  match sheet.rawStatements tokens with
  | (sheet, .error e) => (sheet, .error e)
  | (sheet, .ok statements) =>
    match sheet.check statements with
    | (sheet, .error e) => (sheet, .error e)
    | (sheet, .ok ()) => (sheet, finishStatements sheet.source statements)

def readInner (sheet : Sheet) (tokens : List Token) : Except Error (List Statement) :=
  (Formula.lines sheet.source tokens).map fun formulas => formulas.map .formula

def parse (sheet : Sheet) : Sheet × Except Error (List Statement) :=
  match (Token.readAll .statements sheet.source).toExcept with
  | .error e => (sheet, .error e)
  | .ok tokens => sheet.readTokens tokens

def output (sheet : Sheet) (plotNumber : Nat) : Statement → Except Error Output
  | .formula formula => (sheet.evaluate .empty formula).map .number
  | .plot definition => sheet.drawFunction plotNumber (.plot definition)

def outputs (sheet : Sheet) (plots : Nat) : List Statement → Except Error (List Output)
  | [] => return []
  | statement :: rest => do
    let plots := match statement with
      | .formula _ => plots
      | .plot _ => plots + 1
    let output ← sheet.output plots statement
    return output :: (← sheet.outputs plots rest)

def runAll (sheet : Sheet) : Sheet × Except Error (List Output) :=
  let (sheet, statements) := sheet.parse
  (sheet, statements.bind (sheet.outputs 0))

end FormulaSheet.Sheet
