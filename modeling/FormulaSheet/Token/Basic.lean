import FormulaSheet.Operation
import FormulaSheet.Position

set_option autoImplicit false

namespace FormulaSheet

structure Capture where
  offset : Nat
  text : String
  deriving DecidableEq

namespace Capture

def byteLength (capture : Capture) : Nat :=
  capture.text.utf8ByteSize

def stop (capture : Capture) : Nat :=
  capture.offset + capture.byteLength

def totalLength : List Capture → Nat
  | [] => 0
  | capture :: rest => capture.byteLength + totalLength rest

end Capture

inductive Query where
  | indexOfTerm
  | partialSum
  | indexOfPartialSum
  deriving DecidableEq

inductive CallKind where
  | plain
  | query (query : Query)
  deriving DecidableEq

inductive Outline where
  | function (name parameters body : Capture)
  | plot (body : Capture)
  | sequence (first second : Capture) (third : Option Capture)
  deriving DecidableEq

inductive Shape where
  | definition (outline : Outline)
  | call (callee arguments : Capture)
  | query (query : Query) (arguments : Capture)
  | name
  | number (value : Float)
  | operator (operation : Operation)
  | separator
  | leftParen
  | rightParen
  | equals
  deriving DecidableEq

def Outline.captures : Outline → List Capture
  | function name parameters body => [name, parameters, body]
  | plot body => [body]
  | sequence first second third => first :: second :: third.toList

def Shape.captures : Shape → List Capture
  | definition outline => outline.captures
  | call callee arguments => [callee, arguments]
  | query _ arguments => [arguments]
  | _ => []

structure Token where
  site : Site
  shape : Shape
  deriving DecidableEq

def Shape.captured (shape : Shape) : Nat :=
  Capture.totalLength shape.captures

namespace Token

-- One for the token itself and one for each byte that reading its parts can bring back.
def weight (token : Token) : Nat :=
  1 + token.shape.captured

def weights : List Token → Nat
  | [] => 0
  | token :: rest => token.weight + weights rest

@[simp]
theorem weights_nil : weights [] = 0 := rfl

@[simp]
theorem weights_cons (token : Token) (tokens : List Token) :
    weights (token :: tokens) = token.weight + weights tokens := rfl

theorem weight_pos (token : Token) : 0 < token.weight := by
  simp only [weight]
  omega

end Token

end FormulaSheet
