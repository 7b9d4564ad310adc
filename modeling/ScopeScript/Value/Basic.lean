import ScopeScript.Number.Decimal
import ScopeScript.Program.Basic

/-!
# Values

The values of a running script. A function value refers to the store it was defined in by a
handle and carries an identity: two function values are equal only if they are the same one.
-/

namespace ScopeScript

abbrev Handle := Nat

/-- A function literal together with the store it was met in. -/
structure Closure where
  params : List String
  body : ScopeId
  env : Handle
  identity : Nat
  deriving DecidableEq, Repr

inductive Value where
  | number (x : Float)
  | text (s : String)
  | bool (b : Bool)
  | nil
  | function (closure : Closure)
  | native (name : String)
  | error (message : String)
  deriving DecidableEq

namespace Value

def kindName : Value → String
  | .number _ => "Number"
  | .text _ => "Str"
  | .bool _ => "Bool"
  | .nil => "Nil"
  | .function _ => "Function"
  | .native _ => "Native"
  | .error _ => "Error"

def isTruthy : Value → Bool
  | .number x => x != 0.0
  | .text s => !s.isEmpty
  | .bool b => b
  | .nil | .error _ => false
  | .function _ | .native _ => true

def asNumber? : Value → Option Float
  | .number x => some x
  | _ => none

/-- Equality inside scripts: same kind and same content. A number that is not a number differs
from itself, and functions are compared by identity. -/
def same : Value → Value → Bool
  | .number a, .number b => a == b
  | .text a, .text b => a == b
  | .bool a, .bool b => a == b
  | .nil, .nil => true
  | .function a, .function b => a.identity == b.identity
  | .native a, .native b => a == b
  | .error a, .error b => a == b
  | _, _ => false

def display : Value → String
  | .number x => Decimal.display x
  | .text s => s
  | .bool b => if b then "true" else "false"
  | .nil => "nil"
  | .function c => "<fn(" ++ ", ".intercalate c.params ++ ")>"
  | .native name => "<native " ++ name ++ ">"
  | .error message => "Error: " ++ message

end Value

end ScopeScript
