import Packrat.Token

namespace Packrat

inductive Value : Type
  | number : Float → Value
  | string : String → Value
  | symbol : String → Value
  | list : List Value → Value
  deriving Inhabited

namespace Value

def number? : Value → Option Float
  | number x => some x
  | _ => none

def text? : Value → Option String
  | string s | symbol s => some s
  | _ => none

def items? : Value → Option (List Value)
  | list vs => some vs
  | _ => none

def typeName : Value → String
  | number _ => "number"
  | string _ => "string"
  | symbol _ => "symbol"
  | list _ => "list"

mutual

def display : Value → String
  | number x => Decimal.render .plain x
  | string s => Text.quoted s
  | symbol s => s
  | list vs => "(" ++ String.intercalate " " (displayAll vs) ++ ")"

def displayAll : List Value → List String
  | [] => []
  | v :: vs => v.display :: displayAll vs

end

end Value

class OfToken (V : Type) : Type where
  ofToken : Token → V

export OfToken (ofToken)

instance : OfToken Value where
  ofToken t := match t.payload with
    | some (.number x) => .number x
    | some (.text s) => .string s
    | none => .symbol t.kind.text

instance : OfToken Token where
  ofToken t := t

end Packrat
