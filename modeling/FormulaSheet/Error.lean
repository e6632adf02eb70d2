import FormulaSheet.Decimal.Notation
import FormulaSheet.Operation
import FormulaSheet.Position

set_option autoImplicit false

namespace FormulaSheet

inductive GrammarFault where
  | unreadable (c : Char)
  | numberTooLong
  | malformedNumber (text : String)
  | functionNotAllowed
  | sequenceNotAllowed
  | unexpectedOperator
  | repeatedOperator (operation : Operation)
  | missingOperand (operation : Operation)
  | unexpectedClosing
  | unexpectedEquals
  | unclosedBracket
  | emptyBrackets
  | severalInBrackets
  | unexpectedDefinition
  | reservedName (name : String)
  | malformedParameter (parameter function : String)
  | repeatedParameter (parameter function : String)
  | emptyBody
  | malformedBody
  | sequenceRepeated
  | termCount (given : Nat)
  | malformedTerm (text : String)
  | unevenTerms (first second third : Float)
  | selfCall (function : String)
  | plotCalled
  deriving DecidableEq

inductive NamingFault where
  | unknownVariable (name : String)
  | unboundVariable (name : String)
  | unknownArgument (name : String)
  | notAFunction (name : String)
  | unknownFunction (name : String)
  | tooFewArguments (function : String)
  | tooManyArguments (function : String)
  | argumentCount (function : String) (expected given : Nat)
  | noSequence
  deriving DecidableEq

inductive ArithmeticFault where
  | leftTooLarge
  | rightTooLarge
  | exponentTooLarge (limit given : Float)
  | divisionByZero
  | undefinedOperation (operation : Operation) (left right : Float)
  | undefinedFunction (name : String)
  | undefinedQuery (value : Float)
  deriving DecidableEq

inductive InternalFault where
  | emptyFormula
  | loneOperator (operation : Operation)
  | unreduced (count : Nat)
  | missingArgument (name : String)
  | notAPlot (name : String)
  | callsTooDeep
  deriving DecidableEq

def quoted (text : String) : String :=
  "'" ++ text ++ "'"

def GrammarFault.message : GrammarFault → String
  | unreadable c => "Invalid syntax: " ++ String.singleton c
  | numberTooLong => "Number is too large or too precise"
  | malformedNumber text => "Invalid number: " ++ quoted text
  | functionNotAllowed => "Functions are not allowed here"
  | sequenceNotAllowed => "Sequences are not allowed here"
  | unexpectedOperator => "Unexpected operator"
  | repeatedOperator operation => "Unexpected " ++ quoted operation.text
  | missingOperand operation => "Expected a value after " ++ quoted operation.text
  | unexpectedClosing => "Unexpected closing bracket"
  | unexpectedEquals => "Unexpected '='"
  | unclosedBracket => "Unclosed bracket"
  | emptyBrackets => "Empty brackets"
  | severalInBrackets => "Invalid syntax (multiple expressions in brackets)"
  | unexpectedDefinition => "Unexpected definition"
  | reservedName name => quoted name ++ " is reserved for the sequence"
  | malformedParameter parameter function =>
      "Invalid argument name " ++ quoted parameter ++ " in " ++ function
  | repeatedParameter parameter function =>
      "Duplicate argument " ++ quoted parameter ++ " in " ++ function
  | emptyBody => "Function body is empty"
  | malformedBody => "Invalid function body"
  | sequenceRepeated => "A sequence has already been defined"
  | termCount given => "Expected 2-3 sequence values, got " ++ toString given
  | malformedTerm text => "Invalid sequence value " ++ quoted text
  | unevenTerms first second third =>
      "Invalid sequence (" ++ Decimal.text second ++ "/" ++ Decimal.text first ++ " != " ++
        Decimal.text third ++ "/" ++ Decimal.text second ++ ")"
  | selfCall function => "Function " ++ quoted function ++ " cannot call itself"
  | plotCalled => "Plots cannot be called"

def NamingFault.message : NamingFault → String
  | unknownVariable name => "Unknown variable: " ++ quoted name
  | unboundVariable name => "Variable " ++ quoted name ++ " does not exist"
  | unknownArgument name => "Variable " ++ quoted name ++ " not found"
  | notAFunction name => quoted name ++ " is not a function"
  | unknownFunction name => "Function " ++ quoted name ++ " not found"
  | tooFewArguments function => "Not enough arguments passed to " ++ function
  | tooManyArguments function => "Too many arguments passed to " ++ function
  | argumentCount function expected given =>
      function ++ ": expected " ++ toString expected ++ " arguments, got " ++ toString given
  | noSequence => "The sequence is used before it is defined"

def ArithmeticFault.message : ArithmeticFault → String
  | leftTooLarge => "Number (left) is larger than the permissible values"
  | rightTooLarge => "Number (right) is larger than the permissible values"
  | exponentTooLarge limit given =>
      "Exponents are restricted to " ++ Decimal.text limit ++ " (got " ++ Decimal.text given ++ ")"
  | divisionByZero => "Division by 0"
  | undefinedOperation operation left right =>
      "Math domain error (" ++ Decimal.text left ++ " " ++ operation.text ++ " " ++
        Decimal.text right ++ ")"
  | undefinedFunction name => "Math domain error in " ++ name
  | undefinedQuery value => "Math domain error in sequence query (" ++ Decimal.text value ++ ")"

def InternalFault.message : InternalFault → String
  | emptyFormula => "cannot evaluate an empty expression"
  | loneOperator operation => "operator " ++ quoted operation.text ++ " has no value"
  | unreduced count => "expression reduced to " ++ toString count ++ " items"
  | missingArgument name => "Missing argument: " ++ name
  | notAPlot name => quoted name ++ " is not a plot"
  | callsTooDeep => "calls are nested too deeply"

inductive Error where
  | grammar (fault : GrammarFault) (position : Position)
  | naming (fault : NamingFault) (position : Position)
  | arithmetic (fault : ArithmeticFault) (position : Position) (left right : Float)
  | internal (fault : InternalFault)
  deriving DecidableEq

namespace Error

def position? : Error → Option Position
  | grammar _ position | naming _ position | arithmetic _ position _ _ => some position
  | internal _ => none

def isDivisionByZero : Error → Bool
  | arithmetic .divisionByZero _ _ _ => true
  | _ => false

def message (error : Error) : String :=
  let cause := match error with
    | grammar fault _ => fault.message
    | naming fault _ => fault.message
    | arithmetic fault _ _ _ => fault.message
    | internal fault => "internal error: " ++ fault.message
  match error.position? with
  | some position => cause ++ " (" ++ position.describe ++ ")"
  | none => cause

def render (error : Error) : String :=
  match error.position? with
  | some position => error.message ++ "\n" ++ position.caret
  | none => error.message

end Error

end FormulaSheet
