import Packrat.Grammar
import Packrat.Lexer

namespace Packrat

inductive Slot : Type
  | terminal : Kind → Slot
  | nonTerminal : Nat → Slot
  deriving DecidableEq

structure CompiledRule (V : Type) : Type where
  lhs : Nat
  rhs : List Slot
  reducer : Option (Reducer V)
  failHard : Bool

structure NonTerminal : Type where
  name : String
  ordinary : List Nat
  leftRecursive : List Nat

structure CompiledGrammar (V : Type) : Type where
  start : Nat
  rules : Array (CompiledRule V)
  nonTerminals : Array NonTerminal

variable {V : Type}

def isNonTerminalName (name : String) : Bool :=
  match name.toList with
  | [] => false
  | c :: rest =>
    (c.isAlpha || c == '_') && rest.all fun c => c.isAlphanum || c == '_' || c == '-'

namespace Rule

def check (r : Rule V) : Except Error Unit := do
  if !isNonTerminalName r.lhs then throw { cause := .invalidNonTerminal r.lhs }
  if r.rhs.isEmpty then throw { cause := .emptyProduction r.lhs }
  if r.rhs.any Symbol.isEmpty then throw { cause := .emptySymbol r.text }
  if r.isLeftRecursive && r.rhs.length < 2 then
    throw { cause := .malformedLeftRecursion r.text }
  if r.reducer.isNone && 1 < r.rhs.length then throw { cause := .missingReducer r.text }

end Rule

namespace Grammar

def names (g : Grammar V) : List String :=
  g.rules.foldl (fun names r => if names.contains r.lhs then names else names ++ [r.lhs]) []

def ruleNumbers (g : Grammar V) (name : String) (leftRecursive : Bool) : List Nat :=
  (g.rules.zipIdx.filter fun (r, _) => r.lhs == name && r.isLeftRecursive == leftRecursive).map
    (·.2)

def resolve (names : List String) (lexer : Lexer) (rule : String) :
    Symbol → Except Error Slot
  | .nonTerminal name =>
    match names.idxOf? name with
    | some i => pure (.nonTerminal i)
    | none => throw { cause := .undefinedNonTerminal name rule }
  | .terminal kind =>
    if lexer.recognizes kind then pure (.terminal kind)
    else throw { cause := .unrecognizedTerminal kind.text rule }

def compileRule (names : List String) (lexer : Lexer) (r : Rule V) :
    Except Error (CompiledRule V) := do
  let rhs ← r.rhs.mapM (resolve names lexer r.text)
  pure { lhs := names.idxOf r.lhs, rhs := rhs, reducer := r.reducer, failHard := r.failHard }

def compile (g : Grammar V) (lexer : Lexer) : Except Error (CompiledGrammar V) := do
  g.rules.forM Rule.check
  let names := g.names
  match names.idxOf? g.start with
  | none => throw { cause := .undefinedStart g.start }
  | some start =>
    let rules ← g.rules.mapM (compileRule names lexer)
    let nonTerminals := names.map fun name =>
      { name := name
        ordinary := g.ruleNumbers name false
        leftRecursive := g.ruleNumbers name true : NonTerminal }
    pure { start := start, rules := rules.toArray, nonTerminals := nonTerminals.toArray }

end Grammar

namespace CompiledGrammar

def name (g : CompiledGrammar V) (i : Nat) : String :=
  match g.nonTerminals[i]? with
  | some n => n.name
  | none => ""

def slotName (g : CompiledGrammar V) : Slot → String
  | .terminal k => k.text
  | .nonTerminal i => "#" ++ g.name i

end CompiledGrammar

end Packrat
