set_option autoImplicit false

namespace FormulaSheet

inductive BuiltinFault where
  | divisionByZero
  | argumentCount (expected given : Nat)
  deriving DecidableEq

def BuiltinFault.message : BuiltinFault → String
  | divisionByZero => "Division by 0"
  | argumentCount expected given =>
      "expected " ++ toString expected ++ " arguments, got " ++ toString given

structure Builtin where
  name : String
  parameters : List String
  call : List Float → Except BuiltinFault Float

namespace Builtin

def unary (name : String) (f : Float → Float) : Builtin where
  name
  parameters := ["num"]
  call
    | [x] => .ok (f x)
    | arguments => .error (.argumentCount 1 arguments.length)

def ofRatio (name : String) (f : Float → Float) : Builtin where
  name
  parameters := ["num", "num2"]
  call
    | [x, y] => if y == 0 then .error .divisionByZero else .ok (f (x / y))
    | arguments => .error (.argumentCount 2 arguments.length)

def pi : Float := 3.141592653589793

def e : Float := 2.718281828459045

def radians (degrees : Float) : Float :=
  degrees * (pi / 180)

def all : List Builtin :=
  [unary "rad" radians, unary "sin" Float.sin, unary "cos" Float.cos, unary "tan" Float.tan,
    ofRatio "asin" Float.asin, ofRatio "acos" Float.acos, ofRatio "atan" Float.atan,
    unary "log" Float.log]

def constants : List (String × Float) :=
  [("π", pi), ("pi", pi), ("E", e)]

end Builtin

end FormulaSheet
