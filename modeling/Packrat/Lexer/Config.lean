import Packrat.Error
import Packrat.Token

namespace Packrat

inductive Newlines : Type
  | keep : Newlines
  | ignore : Newlines
  deriving DecidableEq

namespace Newlines

def text : Newlines → String
  | keep => "keep"
  | ignore => "ignore"

def ofText? : String → Option Newlines
  | "keep" => some keep
  | "ignore" => some ignore
  | _ => none

def inspect : Newlines → String
  | keep => "Keep"
  | ignore => "Ignore"

@[simp] theorem ofText?_text (n : Newlines) : ofText? n.text = some n := by
  cases n <;> rfl

end Newlines

structure Lexeme : Type where
  text : String
  marker : Marker

namespace Lexeme

def token (l : Lexeme) (kind : Kind) (payload : Option Payload) : Token :=
  { marker := l.marker, kind := kind, payload := payload }

end Lexeme

structure CustomSpec : Type where
  pattern : String
  kinds : List Kind
  action : Lexeme → Except Error (List Token)

namespace CustomSpec

def skip (pattern : String) : CustomSpec := ⟨pattern, [], fun _ => pure []⟩

def inspect (s : CustomSpec) : String :=
  s!"CustomSpec \x7b pattern: {Text.quoted s.pattern}, kinds: [" ++
    String.intercalate ", " (s.kinds.map Kind.inspect) ++ "], .. \x7d"

end CustomSpec

structure Config : Type where
  keywords : List String := ["for", "class", "while", "true", "false"]
  symbols : List String :=
    ["[", "]", "(", ")", "\x7b", "\x7d", "+", "-", "*", "/", "=", ";", ","]
  newlines : Newlines := .keep
  custom : List CustomSpec := []

namespace Config

def bare : Config := { keywords := [], symbols := [] }

def literals (c : Config) : List String := c.keywords ++ c.symbols

def inspect (c : Config) : String :=
  let texts (ss : List String) : String := String.intercalate ", " (ss.map Text.quoted)
  s!"LexerConfig \x7b keywords: [{texts c.keywords}], symbols: [{texts c.symbols}], " ++
    s!"newline_behavior: {c.newlines.inspect}, custom_specs: [" ++
    String.intercalate ", " (c.custom.map CustomSpec.inspect) ++ "] \x7d"

end Config

end Packrat
