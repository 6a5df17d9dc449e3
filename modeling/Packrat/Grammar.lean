import Packrat.Error
import Packrat.Grammar.Symbol
import Packrat.Text
import Packrat.Token

namespace Packrat

structure Context : Type where
  nonTerminal : String
  marker : Marker
  tokens : List Token

namespace Context

def error (c : Context) (message : String) : Error := .semantic message c.marker

end Context

abbrev Reducer (V : Type) : Type := Context → List V → Except Error V

structure Rule (V : Type) : Type where
  lhs : String
  rhs : List Symbol
  reducer : Option (Reducer V) := none
  /-- A symbol that does not match is an error and not a reason to try another rule. -/
  failHard : Bool := false

structure Grammar (V : Type) : Type where
  start : String
  rules : List (Rule V)

variable {V : Type}

namespace Rule

def ofSymbols (lhs : String) (rhs : List Symbol) : Rule V := { lhs := bareName lhs, rhs := rhs }

def ofNotation (lhs rhs : String) : Rule V :=
  ofSymbols lhs ((Text.words rhs.toList).map fun w => Symbol.ofWord (String.ofList w))

def isLeftRecursive (r : Rule V) : Bool := r.rhs.head? == some (.nonTerminal r.lhs)

def text (r : Rule V) : String :=
  s!"#{r.lhs} <- " ++ String.intercalate " " (r.rhs.map Symbol.display)

def inspect (r : Rule V) : String :=
  s!"Rule \x7b lhs: {Text.quoted r.lhs}, rhs: [" ++
    String.intercalate ", " (r.rhs.map Symbol.inspect) ++
    s!"], reducer: {r.reducer.isSome}, fail_hard: {r.failHard} \x7d"

end Rule

namespace Grammar

def ofRules (start : String) (rules : List (Rule V)) : Grammar V := ⟨bareName start, rules⟩

def inspect (g : Grammar V) : String :=
  s!"Grammar \x7b start: {Text.quoted g.start}, rules: [" ++
    String.intercalate ", " (g.rules.map Rule.inspect) ++ "] \x7d"

end Grammar

end Packrat
