import Packrat.Lexer.Config
import Packrat.Pattern.Reader

namespace Packrat

inductive Action : Type
  | skip : Action
  | newline : Action
  | identifier : Action
  | hexNumber : Action
  | decimal : Action
  | quotedString : Action
  | literal : Action
  | reject : Action
  | custom : (Lexeme → Except Error (List Token)) → Action

structure Spec : Type where
  pattern : String
  action : Action

namespace Spec

def base : List Spec := [
  ⟨"[ \\t\\r]+", .skip⟩,
  ⟨"\\n+", .newline⟩,
  ⟨"[a-zA-Z_][a-zA-Z0-9_]*", .identifier⟩,
  ⟨"0x[0-9a-fA-F]+", .hexNumber⟩,
  ⟨"[0-9]*\\.[0-9]+(?:e(?:\\+|-)?[0-9]+)?", .decimal⟩,
  ⟨"[0-9]+(?:e(?:\\+|-)?[0-9]+)?", .decimal⟩,
  ⟨"\"(?:\\\\\"|[^\"])*\"", .quotedString⟩,
  ⟨"'(?:\\\\'|[^'])*'", .quotedString⟩]

/-- Longer literals come before shorter ones, and equally long ones go by their characters. -/
def literalLe (a b : String) : Bool :=
  b.utf8ByteSize < a.utf8ByteSize || (a.utf8ByteSize == b.utf8ByteSize && a ≤ b)

def literalOrder (literals : List String) : List String :=
  (literals.mergeSort literalLe).eraseReps

def literal? (literals : List String) : Option Spec :=
  if literals.isEmpty then none
  else
    let patterns := (literalOrder literals).map fun l => String.ofList (Pattern.escape l.toList)
    some ⟨String.intercalate "|" patterns, .literal⟩

/-- Whatever no other spec takes, up to the next blank. -/
def catchAll : Spec := ⟨".\\S*", .reject⟩

def ofCustom (s : CustomSpec) : Spec := ⟨s.pattern, .custom s.action⟩

/-- All specs of a configuration; the first that matches wins. -/
def all (c : Config) : List Spec :=
  c.custom.map ofCustom ++ base ++ (literal? c.literals).toList ++ [catchAll]

end Spec

end Packrat
