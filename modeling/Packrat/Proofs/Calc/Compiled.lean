import Packrat.Calc
import Packrat.Proofs.Calc.Expression
import Packrat.Proofs.Lexer.Positions
import Packrat.Proofs.Parser.Unmemoised

namespace Packrat.Calc

open Packrat.Parser Trial

def Level.index : Level → Nat
  | sum => 1
  | product => 2
  | unary => 3
  | atom => 4

def Sign.reducer : Sign → Reducer Value
  | minus => negate
  | plus => Calc.plus

def whole : CompiledRule Value where
  lhs := 0
  rhs := [.nonTerminal Level.sum.index, .terminal .eof]
  reducer := some first
  failHard := true

def operation (op : Op) : CompiledRule Value where
  lhs := op.level.index
  rhs := [.nonTerminal op.level.index, .terminal (.literal op.text),
    .nonTerminal op.level.tighter.index]
  reducer := some binary
  failHard := false

def passing (l : Level) : CompiledRule Value where
  lhs := l.index
  rhs := [.nonTerminal l.tighter.index]
  reducer := none
  failHard := false

def signed (s : Sign) : CompiledRule Value where
  lhs := Level.unary.index
  rhs := [.terminal (.literal s.text), .nonTerminal Level.unary.index]
  reducer := some s.reducer
  failHard := false

def numeral : CompiledRule Value where
  lhs := Level.atom.index
  rhs := [.terminal .number]
  reducer := none
  failHard := false

def parenthesised : CompiledRule Value where
  lhs := Level.atom.index
  rhs := [.terminal (.literal "("), .nonTerminal Level.sum.index, .terminal (.literal ")")]
  reducer := some inner
  failHard := false

def compiled : CompiledGrammar Value where
  start := 0
  rules := #[whole, operation .add, operation .sub, passing .sum, operation .mul, operation .div,
    passing .product, signed .minus, signed .plus, passing .unary, numeral, parenthesised]
  nonTerminals := #[⟨"calc", [0], []⟩, ⟨"sum", [3], [1, 2]⟩, ⟨"product", [6], [4, 5]⟩,
    ⟨"unary", [7, 8, 9], []⟩, ⟨"atom", [10, 11], []⟩]

def Level.ordinary : Level → List (CompiledRule Value)
  | sum => [passing .sum]
  | product => [passing .product]
  | unary => [signed .minus, signed .plus, passing .unary]
  | atom => [numeral, parenthesised]

def Level.ops : Level → List Op
  | sum => [.add, .sub]
  | product => [.mul, .div]
  | unary | atom => []

theorem level_of_mem_ops {l : Level} : ∀ op ∈ l.ops, op.level = l := by
  cases l <;> simp [Level.ops, Op.level]

theorem mem_ops_level (op : Op) : op ∈ op.level.ops := by
  cases op <;> simp [Level.ops, Op.level]

theorem rulesOf_ordinary (l : Level) : compiled.rulesOf l.index false = l.ordinary := by
  cases l <;> rfl

theorem rulesOf_leftRecursive (l : Level) :
    compiled.rulesOf l.index true = l.ops.map operation := by
  cases l <;> rfl

theorem rulesOf_whole : compiled.rulesOf compiled.start false = [whole] := rfl

theorem rulesOf_whole_leftRecursive : compiled.rulesOf compiled.start true = [] := rfl

theorem compile_eq_compiled {lexer : Lexer}
    (h : Lexer.ofConfig { newlines := .ignore } = .ok lexer) :
    grammar.compile lexer = .ok compiled := by
  have hkinds := (Lexer.serves_of_ofConfig h).kinds
  obtain ⟨specs, pattern, groups, keywords, kinds, newlines⟩ := lexer
  dsimp only at hkinds
  subst hkinds
  rfl

def problem (tokens : List Token) : Problem Value := ⟨compiled, tokens.toArray⟩

def DividesByZero (e : Error) : Prop := e.cause = .semantic "division by zero"

variable {tokens : List Token} {place : Nat}

theorem getElem?_problem (tokens : List Token) (place : Nat) :
    (problem tokens).tokens[place]? = tokens[place]? := List.getElem?_toArray

theorem unmemoised_succ (tokens : List Token) (rounds : Nat) (l : Level) (place : Nat) :
    (problem tokens).unmemoised (rounds + 1) l.index place =
      ((problem tokens).tryChoice ((problem tokens).unmemoised rounds) place none l.ordinary).andElse
        ((problem tokens).tryGrow ((problem tokens).unmemoised rounds) place (l.ops.map operation)
          rounds)
        .missed := by
  have hordinary := rulesOf_ordinary l
  have hops := rulesOf_leftRecursive l
  rw [← hordinary, ← hops]
  rfl

theorem drop_eq_cons {t : Token} (h : (problem tokens).tokens[place]? = some t) :
    tokens.drop place = t :: tokens.drop (place + 1) := by
  rw [getElem?_problem] at h
  obtain ⟨hlt, rfl⟩ := List.getElem?_eq_some_iff.1 h
  exact List.drop_eq_getElem_cons hlt

theorem mem_of_problem {t : Token} (h : (problem tokens).tokens[place]? = some t) : t ∈ tokens := by
  rw [getElem?_problem] at h
  exact List.mem_of_getElem? h

theorem ofToken_eq (t : Token) :
    (ofToken t : Value) = match t.payload with
      | some (.number x) => .number x
      | some (.text s) => .string s
      | none => .symbol t.kind.text := rfl

theorem ofToken_literal {t : Token} {text : String} (hkind : t.kind = .literal text) (h : t.Fits) :
    (ofToken t : Value) = .symbol text := by
  rw [Token.Fits, hkind] at h
  rw [ofToken_eq, show t.payload = none from h, hkind]
  rfl

theorem exists_ofToken_number {t : Token} (hkind : t.kind = .number) (h : t.Fits) :
    ∃ x, t.payload = some (.number x) ∧ (ofToken t : Value) = .number x := by
  rw [Token.Fits, hkind] at h
  obtain ⟨x, hx⟩ := h
  exact ⟨x, hx, by rw [ofToken_eq, hx]⟩

theorem binary_eq (context : Context) (op : Op) (x y : Float) :
    binary context [.number x, .symbol op.text, .number y] =
      match op.result? x y with
      | some z => .ok (.number z)
      | none => .error (context.error "division by zero") := by
  cases op with
  | add => rfl
  | sub => rfl
  | mul => rfl
  | div =>
    change (if y == 0.0 then _ else _) = _
    rw [Op.result?]
    split
    · rfl
    · rfl

theorem reducer_eq (context : Context) (s : Sign) (v : Value) (x : Float) :
    s.reducer context [v, .number x] = .ok (.number (s.apply x)) := by
  cases s <;> rfl

end Packrat.Calc
