import Packrat.Marker
import Packrat.Text.Printable

namespace Packrat

inductive Cause : Type
  | invalidNonTerminal (name : String) : Cause
  | emptySymbol (rule : String) : Cause
  | emptyProduction (nonTerminal : String) : Cause
  | missingReducer (rule : String) : Cause
  | malformedLeftRecursion (rule : String) : Cause
  | undefinedStart (start : String) : Cause
  | undefinedNonTerminal (name rule : String) : Cause
  | unrecognizedTerminal (kind rule : String) : Cause
  | invalidLexicalSymbol (symbol reason : String) : Cause
  | invalidPattern (pattern reason : String) : Cause
  | unrecognizedToken (text : String) : Cause
  | invalidLiteral (literalType value : String) : Cause
  | stalled (text : String) : Cause
  | requiredMatch (nonTerminal expected found : String) : Cause
  | noMatch (found : String) : Cause
  | semantic (message : String) : Cause
  | config (message : String) : Cause
  deriving DecidableEq

inductive Category : Type
  | grammar : Category
  | lex : Category
  | parse : Category
  | config : Category
  deriving DecidableEq

def Category.text : Category → String
  | grammar => "grammar"
  | lex => "lex"
  | parse => "parse"
  | config => "config"

namespace Cause

def category : Cause → Category
  | invalidNonTerminal _ | emptySymbol _ | emptyProduction _ | missingReducer _
  | malformedLeftRecursion _ | undefinedStart _ | undefinedNonTerminal _ _
  | unrecognizedTerminal _ _ | invalidLexicalSymbol _ _ | invalidPattern _ _ => .grammar
  | unrecognizedToken _ | invalidLiteral _ _ | stalled _ => .lex
  | requiredMatch _ _ _ | noMatch _ | semantic _ => .parse
  | config _ => .config

def code : Cause → String
  | invalidNonTerminal _ => "invalid_non_terminal"
  | emptySymbol _ => "empty_symbol"
  | emptyProduction _ => "empty_production"
  | missingReducer _ => "missing_reducer"
  | malformedLeftRecursion _ => "malformed_left_recursion"
  | undefinedStart _ => "undefined_start"
  | undefinedNonTerminal _ _ => "undefined_non_terminal"
  | unrecognizedTerminal _ _ => "unrecognized_terminal"
  | invalidLexicalSymbol _ _ => "invalid_lexical_symbol"
  | invalidPattern _ _ => "invalid_pattern"
  | unrecognizedToken _ => "unrecognized_token"
  | invalidLiteral _ _ => "invalid_literal"
  | stalled _ => "stalled"
  | requiredMatch _ _ _ => "required_match"
  | noMatch _ => "no_match"
  | semantic _ => "semantic"
  | config _ => "config"

def label : Cause → String
  | semantic _ => "rejected here"
  | c => match c.category with
    | .grammar => "in this grammar"
    | .lex => "unrecognized input"
    | .parse => "failed to match here"
    | .config => "in this configuration"

def message : Cause → String
  | invalidNonTerminal name =>
    s!"Grammar error: invalid non-terminal name '{name}' (must match [A-Za-z_][A-Za-z0-9_-]*)"
  | emptySymbol rule => s!"Grammar error: empty symbol name in rule {rule}"
  | emptyProduction nonTerminal =>
    s!"Grammar error: empty production for non-terminal '{nonTerminal}'"
  | missingReducer rule =>
    "Grammar error: a reducer may not be omitted when the pattern has more than one symbol " ++
      s!"({rule})"
  | malformedLeftRecursion rule =>
    s!"Grammar error: left-recursive rule needs at least two symbols ({rule})"
  | undefinedStart start =>
    s!"Grammar error: start symbol '{start}' is not a recognized non-terminal"
  | undefinedNonTerminal name rule =>
    s!"Grammar error: no production rule for non-terminal '{name}' (referenced by {rule})"
  | unrecognizedTerminal kind rule =>
    s!"Grammar error: unrecognized terminal symbol '{kind}' (referenced by {rule})"
  | invalidLexicalSymbol symbol reason =>
    s!"Grammar error: invalid lexical symbol {Text.quoted symbol}: {reason}"
  | invalidPattern pattern reason =>
    s!"Grammar error: invalid pattern {Text.quoted pattern}: {reason}"
  | unrecognizedToken text => s!"Lex error: unrecognized token '{text}'"
  | invalidLiteral literalType value => s!"Lex error: invalid {literalType} {value}"
  | stalled text => s!"Lex error: scanner cannot advance at '{text}'"
  | requiredMatch nonTerminal expected found =>
    s!"Parse error: failed to match {nonTerminal} (expected {expected}) at {found}"
  | noMatch found => s!"Parse error: parse failed at {found}"
  | semantic message => s!"Parse error: {message}"
  | config message => s!"Config error: {message}"

def namesLine (c : Cause) : Bool :=
  match c.category with
  | .lex | .parse => true
  | .grammar | .config => false

end Cause

structure Source : Type where
  name : String
  content : String
  deriving DecidableEq

structure Error : Type where
  cause : Cause
  marker : Option Marker := none
  help : Option String := none
  source : Option Source := none
  deriving DecidableEq

namespace Error

def semantic (message : String) (marker : Marker) : Error :=
  { cause := .semantic message, marker := some marker }

def config (message : String) : Error := { cause := .config message }

/-- Attaches a source; one that is attached stays. -/
def withSource (e : Error) (s : Source) : Error := { e with source := e.source.or (some s) }

def line (e : Error) : Option Nat := e.marker.map (·.line)

def code (e : Error) : String := s!"lexparse::{e.cause.category.text}::{e.cause.code}"

def message (e : Error) : String :=
  match e.marker with
  | some m => if e.cause.namesLine then s!"{e.cause.message} on line {m.line}" else e.cause.message
  | none => e.cause.message

def label? (e : Error) : Option (String × Nat × Nat) :=
  match e.source, e.marker with
  | some _, some m => some (e.cause.label, m.start, m.length)
  | _, _ => none

@[simp] theorem withSource_withSource (e : Error) (s t : Source) :
    (e.withSource s).withSource t = e.withSource s := by
  cases h : e.source <;> simp [withSource, h]

end Error

end Packrat
