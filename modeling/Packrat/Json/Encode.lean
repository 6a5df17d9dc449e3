import Packrat.Json
import Packrat.Lexer.Config
import Packrat.Value

namespace Packrat

def Marker.toJson (m : Marker) : Json :=
  .record [
    ("source_name", .text m.source),
    ("main_index", .ofNat m.focus),
    ("start_index", .ofNat m.start),
    ("end_index", .ofNat m.stop),
    ("line_number", .ofNat m.line)]

def Kind.toJson : Kind → Json
  | .literal s => .record [("Literal", .text s)]
  | k => .text k.tag

def Payload.toJson : Payload → Json
  | .text s => .text s
  | .number x => .ofFloat x

def Token.toJson (t : Token) : Json :=
  .record [
    ("marker", t.marker.toJson),
    ("kind", t.kind.toJson),
    ("value", match t.payload with | some p => p.toJson | none => .null)]

namespace Value

mutual

def toJson : Value → Json
  | number x => .record [("Number", .ofFloat x)]
  | string s => .record [("String", .text s)]
  | symbol s => .record [("Symbol", .text s)]
  | list vs => .record [("List", .array (toJsonAll vs))]

def toJsonAll : List Value → List Json
  | [] => []
  | v :: vs => v.toJson :: toJsonAll vs

end

end Value

/-- Keywords, symbols and line breaks; specs of one's own have no written form. -/
def Config.toJson (c : Config) : Json :=
  .record [
    ("keywords", .array (c.keywords.map .text)),
    ("symbols", .array (c.symbols.map .text)),
    ("newline_behavior", .text c.newlines.text)]

end Packrat
