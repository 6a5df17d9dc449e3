import Packrat.Lexer.Config
import Packrat.Yaml.Node

/-!
Configurations in YAML.

A scalar counts as its text wherever a text is asked for. A value that is left out is an empty
list or an empty configuration.
-/

namespace Packrat.Yaml.Document

def text? (d : Document) (n : Node) : Option String :=
  match d.resolve? n with
  | some (.scalar _ text _) => some text
  | _ => none

def texts? (d : Document) (n : Node) : Option (List String) :=
  match d.resolve? n with
  | some (.sequence _ items) => items.mapM d.text?
  | some (.scalar _ "" true) => some []
  | _ => none

def fields? (d : Document) (n : Node) : Option (List (String × Node)) :=
  match d.resolve? n with
  | some (.mapping _ pairs) => pairs.mapM fun (k, v) => (d.text? k).map (·, v)
  | some (.scalar _ "" true) => some []
  | _ => none

def isNullText (text : String) : Bool := ["", "~", "null", "Null", "NULL"].contains text

def localTag? (tag : Option String) : Option String :=
  match tag.map String.toList with
  | some ('!' :: rest) => some (if rest.isEmpty then "!" else String.ofList rest)
  | _ => none

/-- A name as the text of a scalar, or as the tag of one that holds nothing. -/
def name? (d : Document) (n : Node) : Option String :=
  match d.resolve? n with
  | some (.scalar tag text plain) =>
    match localTag? tag with
    | some name => if plain && isNullText text then some name else none
    | none => some text
  | _ => none

def field? (fields : List (String × Node)) (name : String) : Option (Option Node) :=
  match fields.filter (·.1 == name) with
  | [] => some none
  | [(_, n)] => some (some n)
  | _ => none

def config? (d : Document) : Option Config := do
  let fields ← d.fields? d.root
  let field {α : Type} (name : String) (default : α) (decode : Node → Option α) :
      Option α := do
    match ← field? fields name with
    | some n => decode n
    | none => some default
  let initial : Config := {}
  some {
    keywords := ← field "keywords" initial.keywords d.texts?
    symbols := ← field "symbols" initial.symbols d.texts?
    newlines := ← field "newline_behavior" initial.newlines fun n =>
      (d.name? n).bind Newlines.ofText? }

end Packrat.Yaml.Document

namespace Packrat.Config

def readYaml (text : String) : Except Error Config :=
  match (Yaml.Document.read? text.toList).bind Yaml.Document.config? with
  | some c => pure c
  | none => throw (.config "invalid YAML")

end Packrat.Config
