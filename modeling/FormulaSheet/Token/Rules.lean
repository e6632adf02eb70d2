import FormulaSheet.Error
import FormulaSheet.Token.Pattern

set_option autoImplicit false

namespace FormulaSheet.Token

-- Whole numbers below `10 ^ 8` and powers of ten up to `10 ^ 7` are exact, so the quotient of two
-- is rounded once.
def longestNumber : Nat := 8

def digitsValue (digits : List Char) : Nat :=
  digits.foldl (fun n c => 10 * n + (c.toNat - '0'.toNat)) 0

def decimalValue (whole fraction : List Char) : Float :=
  Float.ofNat (digitsValue (whole ++ fraction)) / Float.ofNat (Nat.pow 10 fraction.length)

def readDecimal (text : List Char) : Option Float :=
  let whole := text.takeWhile Char.isDigit
  match text.dropWhile Char.isDigit with
  | [] => if whole.isEmpty then none else some (decimalValue whole [])
  | c :: fraction =>
    if c = '.' ∧ fraction.all Char.isDigit ∧ ¬(whole ++ fraction).isEmpty then
      some (decimalValue whole fraction)
    else none

def readNumber (text : List Char) : Except GrammarFault Shape :=
  if Text.byteLength text > longestNumber then .error .numberTooLong
  else match (readDecimal text).filter Float.isFinite with
    | some value => .ok (.number value)
    | none => .error (.malformedNumber (String.ofList text))

def Fits (shape : List Char → Except GrammarFault Shape) (bound : Nat) : Prop :=
  ∀ text found, shape text = .ok found → found.captured ≤ bound

structure Rule where
  pattern : Pattern
  shape : Builder (List Char → Except GrammarFault Shape) pattern
  progress : 0 < pattern.leastSkipped := by decide
  bounded : Pattern.Bounded Fits pattern shape 0

section Characters

def isSequenceName (c : Char) : Bool :=
  c = 's' || c = 'S'

def isParameterText (c : Char) : Bool :=
  c.isAlpha || c = ',' || Text.isBlank c

def isTermText (c : Char) : Bool :=
  c ≠ ',' && !Text.isLineBreak c

def isNameStart (c : Char) : Bool :=
  c = '_' || c = 'π' || c.isAlpha

def isNameRest (c : Char) : Bool :=
  c = '_' || c.isAlphanum

def isNumberText (c : Char) : Bool :=
  c = '.' || c.isDigit

end Characters

namespace Step

def char (c : Char) : Step :=
  .skip (.one (· = c))

def blanks : Step :=
  .skip (.many Text.isBlank)

def letters : Step :=
  .keep (.oneOrMore Char.isAlpha)

def parameters : Step :=
  .keep (.many isParameterText)

def body : Step :=
  .keep (.many (!Text.isLineBreak ·))

def term : Step :=
  .keep (.many isTermText)

def sequenceName : Step :=
  .skip (.one isSequenceName)

end Step

namespace Pattern

def arguments : Pattern :=
  [.blanks, .char '(', .keep .enclosed, .char ')']

def function : Pattern :=
  [.letters, .char '(', .parameters, .char ')', .blanks, .char '=', .blanks, .body]

def plot : Pattern :=
  [.char 'y', .blanks, .char '=', .blanks, .body]

def sequence : Pattern :=
  [.sequenceName, .blanks, .char '=', .blanks, .term, .char ',', .term]

def longSequence : Pattern :=
  [.sequenceName, .blanks, .char '=', .blanks, .term, .char ',', .term, .char ',', .term]

def call : Pattern :=
  .letters :: arguments

def query : Query → Pattern
  | .indexOfTerm => .sequenceName :: .blanks :: .char '?' :: arguments
  | .partialSum => .sequenceName :: .blanks :: .char '!' :: arguments
  | .indexOfPartialSum => .sequenceName :: .blanks :: .char '!' :: .char '!' :: arguments

end Pattern

namespace Rule

def function : Rule where
  pattern := .function
  shape := fun name parameters body _ => .ok (.definition (.function name parameters body))
  bounded := by
    rintro name parameters body _ _ ⟨⟩
    simp [Shape.captured, Shape.captures, Outline.captures, Capture.totalLength]
    omega

def noFunction : Rule where
  pattern := .function
  shape := fun _ _ _ _ => .error .functionNotAllowed
  bounded := by rintro _ _ _ _ _ ⟨⟩

def plot : Rule where
  pattern := .plot
  shape := fun body _ => .ok (.definition (.plot body))
  bounded := by
    rintro body _ _ ⟨⟩
    simp [Shape.captured, Shape.captures, Outline.captures, Capture.totalLength]

def sequence : Rule where
  pattern := .sequence
  shape := fun first second _ => .ok (.definition (.sequence first second none))
  bounded := by
    rintro first second _ _ ⟨⟩
    simp [Shape.captured, Shape.captures, Outline.captures, Capture.totalLength]

def longSequence : Rule where
  pattern := .longSequence
  shape := fun first second third _ => .ok (.definition (.sequence first second (some third)))
  bounded := by
    rintro first second third _ _ ⟨⟩
    simp [Shape.captured, Shape.captures, Outline.captures, Capture.totalLength]
    omega

def noSequence : Rule where
  pattern := .sequence
  shape := fun _ _ _ => .error .sequenceNotAllowed
  bounded := by rintro _ _ _ _ ⟨⟩

def noLongSequence : Rule where
  pattern := .longSequence
  shape := fun _ _ _ _ => .error .sequenceNotAllowed
  bounded := by rintro _ _ _ _ _ ⟨⟩

def call : Rule where
  pattern := .call
  shape := fun callee arguments _ => .ok (.call callee arguments)
  bounded := by
    rintro callee arguments _ _ ⟨⟩
    simp [Shape.captured, Shape.captures, Capture.totalLength]

def indexOfTerm : Rule where
  pattern := .query .indexOfTerm
  shape := fun arguments _ => .ok (.query .indexOfTerm arguments)
  bounded := by
    rintro arguments _ _ ⟨⟩
    simp [Shape.captured, Shape.captures, Capture.totalLength]

def partialSum : Rule where
  pattern := .query .partialSum
  shape := fun arguments _ => .ok (.query .partialSum arguments)
  bounded := by
    rintro arguments _ _ ⟨⟩
    simp [Shape.captured, Shape.captures, Capture.totalLength]

def indexOfPartialSum : Rule where
  pattern := .query .indexOfPartialSum
  shape := fun arguments _ => .ok (.query .indexOfPartialSum arguments)
  bounded := by
    rintro arguments _ _ ⟨⟩
    simp [Shape.captured, Shape.captures, Capture.totalLength]

def name : Rule where
  pattern := [.skip (.one isNameStart), .skip (.many isNameRest)]
  shape := fun _ => .ok .name
  bounded := by
    rintro _ _ ⟨⟩
    simp [Shape.captured, Shape.captures, Capture.totalLength]

def number : Rule where
  pattern := [.skip (.oneOrMore isNumberText)]
  shape := readNumber
  bounded := by
    intro text found h
    simp only [readNumber] at h
    split at h
    · contradiction
    · split at h
      · cases h
        simp [Shape.captured, Shape.captures, Capture.totalLength]
      · contradiction

def operator (operation : Operation) : Rule where
  pattern := [.char operation.symbol]
  shape := fun _ => .ok (.operator operation)
  progress := Nat.one_pos
  bounded := by
    rintro _ _ ⟨⟩
    simp [Shape.captured, Shape.captures, Capture.totalLength]

def newline : Rule where
  pattern := [.skip (.oneOrMore Text.isLineBreak)]
  shape := fun _ => .ok .separator
  bounded := by
    rintro _ _ ⟨⟩
    simp [Shape.captured, Shape.captures, Capture.totalLength]

def mark (c : Char) (shape : Shape) (plain : shape.captures = []) : Rule where
  pattern := [.char c]
  shape := fun _ => .ok shape
  progress := Nat.one_pos
  bounded := by
    rintro _ _ ⟨⟩
    simp [Shape.captured, plain, Capture.totalLength]

end Rule

inductive Grammar where
  | statements
  | arguments
  deriving DecidableEq

def valueRules : List Rule :=
  [.call, .indexOfTerm, .partialSum, .indexOfPartialSum, .name, .number] ++
    Operation.precedence.map .operator

def bracketRules : List Rule :=
  [.mark '(' .leftParen rfl, .mark ')' .rightParen rfl]

def Grammar.rules : Grammar → List Rule
  | statements =>
    [.function, .plot, .longSequence, .sequence] ++ valueRules ++ [.newline] ++ bracketRules ++
      [.mark '=' .equals rfl]
  | arguments =>
    [.noLongSequence, .noSequence, .noFunction] ++ valueRules ++
      [.mark ',' .separator rfl] ++ bracketRules

end FormulaSheet.Token
