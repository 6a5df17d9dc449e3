import Packrat.Token.Kind

namespace Packrat

inductive Symbol : Type
  | terminal : Kind → Symbol
  | nonTerminal : String → Symbol
  deriving DecidableEq

def bareName (name : String) : String :=
  match name.toList with
  | '#' :: rest => String.ofList rest
  | _ => name

namespace Symbol

/-- A word of the rule notation: `#` marks a non-terminal. -/
def ofWord (word : String) : Symbol :=
  match word.toList with
  | '#' :: rest => nonTerminal (String.ofList rest)
  | _ => terminal (Kind.ofText word)

def display : Symbol → String
  | terminal k => k.text
  | nonTerminal name => "#" ++ name

def isEmpty : Symbol → Bool
  | terminal k => k.text.isEmpty
  | nonTerminal name => name.isEmpty

def inspect : Symbol → String
  | terminal k => s!"Terminal({k.inspect})"
  | nonTerminal name => s!"NonTerminal({Text.quoted name})"

end Symbol

end Packrat
