import Packrat.Lexer.Scan
import Packrat.Parser.Match

namespace Packrat

structure Parser (V : Type) : Type where
  lexer : Lexer
  grammar : CompiledGrammar V

inductive Outcome (V : Type) : Type
  | matched (value : V) (next : Nat) : Outcome V
  | failed (furthest : Token) : Outcome V

variable {V : Type}

def Outcome.value (source : Source) : Outcome V → Except Error V
  | .matched v _ => pure v
  | .failed t => throw {
      cause := .noMatch t.descriptor
      marker := some t.marker
      source := some source }

namespace Parser

def ofGrammar (g : Grammar V) (lexer : Lexer) : Except Error (Parser V) := do
  pure ⟨lexer, ← g.compile lexer⟩

def tokens (p : Parser V) (source : Source) : Except Error (List Token) :=
  match p.lexer.list source.name source.content with
  | .ok ts => pure ts
  | .error e => throw (e.withSource source)

variable [OfToken V]

/-- The outcome for a source, and the reductions on the way to it: for each call of a reducer, the
non-terminal and the span. -/
def trace (p : Parser V) (source : Source) :
    Except Error (Outcome V) × List (String × Marker) :=
  match p.tokens source with
  | .error e => (throw e, [])
  | .ok ts =>
    let problem : Problem V := ⟨p.grammar, ts.toArray⟩
    let (answer, st) := problem.run
    let reductions := st.events.reverse.filterMap fun
      | .reduced i start stop => some (p.grammar.name i, problem.marker start stop)
      | _ => none
    let outcome := match answer with
      | .found step => pure (.matched step.value step.next)
      | .missed =>
        match problem.tokenAt st.furthest with
        | some t => pure (.failed t)
        | none => throw { cause := .noMatch "", source := some source }
      | .broken e => throw (e.withSource source)
    (outcome, reductions)

def parse (p : Parser V) (source : Source) : Except Error (Outcome V) := (p.trace source).1

def parseValue (p : Parser V) (source : Source) : Except Error V := do
  Outcome.value source (← p.parse source)

def inspect (p : Parser V) : String :=
  let start := Text.quoted (p.grammar.name p.grammar.start)
  s!"Parser \x7b lexer: {p.lexer.inspect}, start: {start}, rules: {p.grammar.rules.size} \x7d"

end Parser

end Packrat
