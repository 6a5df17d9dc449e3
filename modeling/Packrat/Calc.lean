import Packrat.Parser

namespace Packrat.Calc

def number (c : Context) (v : Value) : Except Error Float :=
  match v with
  | .number x => pure x
  | v => throw (c.error s!"expected a number, found {v.typeName}")

def first : Reducer Value
  | _, v :: _ => pure v
  | c, [] => throw (c.error "nothing to reduce")

def inner : Reducer Value
  | _, _ :: v :: _ => pure v
  | c, _ => throw (c.error "nothing to reduce")

def negate : Reducer Value
  | c, _ :: v :: _ => do pure (.number (-(← number c v)))
  | c, _ => throw (c.error "nothing to reduce")

def plus : Reducer Value
  | c, _ :: v :: _ => do pure (.number (← number c v))
  | c, _ => throw (c.error "nothing to reduce")

def binary : Reducer Value
  | c, a :: op :: b :: _ => do
    let x ← number c a
    let y ← number c b
    match op.text? with
    | some "+" => pure (.number (x + y))
    | some "-" => pure (.number (x - y))
    | some "*" => pure (.number (x * y))
    | some "/" => if y == 0.0 then throw (c.error "division by zero") else pure (.number (x / y))
    | _ => throw (c.error s!"unknown operator {op.display}")
  | c, _ => throw (c.error "nothing to reduce")

def rule (lhs rhs : String) (reducer : Option (Reducer Value)) : Rule Value :=
  { (Rule.ofNotation lhs rhs : Rule Value) with reducer := reducer }

def grammar : Grammar Value :=
  .ofRules "calc" [
    { rule "calc" "#sum EOF" (some first) with failHard := true },
    rule "sum" "#sum + #product" (some binary),
    rule "sum" "#sum - #product" (some binary),
    rule "sum" "#product" none,
    rule "product" "#product * #unary" (some binary),
    rule "product" "#product / #unary" (some binary),
    rule "product" "#unary" none,
    rule "unary" "- #unary" (some negate),
    rule "unary" "+ #unary" (some plus),
    rule "unary" "#atom" none,
    rule "atom" "NUMBER" none,
    rule "atom" "( #sum )" (some inner)]

def parser : Except Error (Parser Value) := do
  let lexer ← Lexer.ofConfig { newlines := .ignore }
  Parser.ofGrammar grammar lexer

def evaluate (expression : String) : Except Error Float := do
  let v ← (← parser).parseValue ⟨"<expression>", expression⟩
  pure (v.number?.getD (0.0 / 0.0))

end Packrat.Calc
