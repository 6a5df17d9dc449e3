import Packrat.Decimal.Layout
import Packrat.Marker
import Packrat.Token.Kind

namespace Packrat

inductive Payload : Type
  | text : String → Payload
  | number : Float → Payload
  deriving Inhabited

namespace Payload

def display : Payload → String
  | text s => Text.quoted s
  | number x => Decimal.render .plain x

end Payload

structure Token : Type where
  marker : Marker
  kind : Kind
  payload : Option Payload := none

namespace Token

def isEof (t : Token) : Bool := t.kind == .eof

def line (t : Token) : Nat := t.marker.line

def descriptor (t : Token) : String :=
  match t.payload with
  | some p => s!"{t.kind.text}({p.display})"
  | none => t.kind.text

end Token

end Packrat
