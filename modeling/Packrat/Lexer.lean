import Packrat.Lexer.Literal
import Packrat.Lexer.Spec
import Packrat.Pattern.Match

/-!
Lexers: a configuration made ready to split sources into tokens.

The specs become one pattern with a numbered group for each. The group that a match went through
tells the spec, so the order of the specs decides which of them is taken.
-/

namespace Packrat

structure Lexer : Type where
  specs : List Spec
  pattern : Pattern
  groups : List Nat
  keywords : List String
  kinds : List Kind
  newlines : Newlines

namespace Lexer

def checkLiteral (what text : String) : Except Error Unit :=
  let fail (reason : String) : Except Error Unit :=
    throw { cause := .invalidLexicalSymbol text s!"{what} {reason}" }
  if text.isEmpty then fail "must be non-empty"
  else if Kind.isCategoryText text then fail "collides with a token category name"
  else if text.toList.any Text.isBlank then fail "may not contain whitespace"
  else pure ()

def readPattern (text : String) : Except Error Pattern :=
  match Pattern.read text.toList with
  | .ok p => pure p
  | .error _ => throw { cause := .invalidPattern text "error parsing pattern 0" }

def alternation (specs : List Spec) : String :=
  String.intercalate "|" (specs.map fun s => "(" ++ s.pattern ++ ")")

/-- The number of each spec's group, when `first` is the number of the first one: a spec takes one
number for itself and one for each group in it that a match can pass through. -/
def groupNumbers (first : Nat) : List Pattern → List Nat
  | [] => []
  | p :: rest => first :: groupNumbers (first + p.liveGroups + 1) rest

def ofConfig (c : Config) : Except Error Lexer := do
  c.keywords.forM (checkLiteral "keyword")
  c.symbols.forM (checkLiteral "symbol")
  let specs := Spec.all c
  -- Each pattern is read alone first, which tells how many groups it has.
  let alone ← specs.mapM fun s => readPattern s.pattern
  let pattern ← readPattern (alternation specs)
  pure {
    specs := specs
    pattern := pattern
    groups := groupNumbers 1 alone
    keywords := c.keywords
    kinds := Kind.sorted
      (Kind.categories ++ c.custom.flatMap (·.kinds) ++ c.literals.map Kind.literal)
    newlines := c.newlines }

def recognizes (lexer : Lexer) (k : Kind) : Bool := lexer.kinds.contains k

def inspect (lexer : Lexer) : String :=
  s!"Lexer \x7b kinds: \x7b" ++ String.intercalate ", " (lexer.kinds.map Kind.inspect) ++
    s!"\x7d, newline_behavior: {lexer.newlines.inspect}, .. \x7d"

end Lexer

end Packrat
