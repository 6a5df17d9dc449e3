import Packrat.Json.Number
import Packrat.Json.Reader
import Packrat.Lexer.Config

/-!
Markers, tokens and configurations from JSON.

A record is an object or an array of its fields in their order. In an object unknown fields are
ignored, and a field that stands twice is refused.
-/

namespace Packrat

namespace Json

def text? : Json → Option String
  | string s => s
  | _ => none

def texts? : Json → Option (List String)
  | array vs => vs.mapM text?
  | _ => none

def keys? (fields : List (Option String × Json)) : Option (List String) := fields.mapM (·.1)

def fields? (names : List String) (fields : List (Option String × Json)) :
    Option (List (Option Json)) := do
  let keys ← keys? fields
  if names.any fun name => 1 < keys.count name then none
  some (names.map fun name => (fields.find? (·.1 == some name)).map (·.2))

/-- A constructor without arguments: its name, or an object with the name and null. -/
def constant? : Json → Option String
  | string s => s
  | object [(some name, null)] => some name
  | _ => none

end Json

namespace Marker

def ofFields? : List (Option Json) → Option Marker
  | [some source, some focus, some start, some stop, some line] => do
    some ⟨← source.text?, ← focus.natural?, ← start.natural?, ← stop.natural?, ← line.natural?⟩
  | _ => none

def ofJson? : Json → Option Marker
  | .object fields => do
    let names := ["source_name", "main_index", "start_index", "end_index", "line_number"]
    ofFields? (← Json.fields? names fields)
  | .array vs => ofFields? (vs.map some)
  | _ => none

end Marker

namespace Kind

def ofTag? (name : String) : Option Kind := categories.find? (·.tag == name)

def ofJson? (j : Json) : Option Kind :=
  match j with
  | .object [(some "Literal", v)] => v.text?.map literal
  | j => j.constant?.bind ofTag?

end Kind

namespace Payload

def ofJson? : Json → Option (Option Payload)
  | .null => some none
  | .string s => s.map fun s => some (text s)
  | .number cs => (Json.number cs).float?.map fun x => some (number x)
  | _ => none

end Payload

namespace Token

def ofFields? (marker kind value : Json) : Option Token := do
  some ⟨← Marker.ofJson? marker, ← Kind.ofJson? kind, ← Payload.ofJson? value⟩

def ofJson? : Json → Option Token
  | .object fields => do
    match ← Json.fields? ["marker", "kind", "value"] fields with
    | [some marker, some kind, value] => ofFields? marker kind (value.getD .null)
    | _ => none
  | .array [marker, kind, value] => ofFields? marker kind value
  | _ => none

def read? (text : String) : Option Token := (Json.read? text.toList).bind ofJson?

end Token

namespace Newlines

def ofJson? (j : Json) : Option Newlines := j.constant?.bind ofText?

end Newlines

namespace Config

def ofFields? (fields : List (Option Json)) : Option Config := do
  let field {α : Type} (i : Nat) (default : α) (decode : Json → Option α) : Option α :=
    match fields[i]?.join with
    | some j => decode j
    | none => some default
  let initial : Config := {}
  some {
    keywords := ← field 0 initial.keywords Json.texts?
    symbols := ← field 1 initial.symbols Json.texts?
    newlines := ← field 2 initial.newlines Newlines.ofJson? }

def ofJson? : Json → Option Config
  | .object fields => do
    ofFields? (← Json.fields? ["keywords", "symbols", "newline_behavior"] fields)
  | .array vs => if vs.length ≤ 3 then ofFields? (vs.map some) else none
  | _ => none

def readJson (text : String) : Except Error Config :=
  match (Json.read? text.toList).bind ofJson? with
  | some c => pure c
  | none => throw (.config "invalid JSON")

end Config

end Packrat
