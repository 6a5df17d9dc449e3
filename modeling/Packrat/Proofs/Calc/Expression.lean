import Packrat.Token

namespace Packrat.Calc

inductive Op : Type
  | add : Op
  | sub : Op
  | mul : Op
  | div : Op
  deriving DecidableEq

inductive Sign : Type
  | minus : Sign
  | plus : Sign
  deriving DecidableEq

/-- What an expression can be a part of: looser ones are made of tighter ones. -/
inductive Level : Type
  | sum : Level
  | product : Level
  | unary : Level
  | atom : Level
  deriving DecidableEq

def Level.tighter : Level → Level
  | sum => product
  | product => unary
  | unary => atom
  | atom => atom

namespace Op

def text : Op → String
  | add => "+"
  | sub => "-"
  | mul => "*"
  | div => "/"

def level : Op → Level
  | add | sub => .sum
  | mul | div => .product

def result? : Op → Float → Float → Option Float
  | add, x, y => some (x + y)
  | sub, x, y => some (x - y)
  | mul, x, y => some (x * y)
  | div, x, y => if y == 0.0 then none else some (x / y)

end Op

namespace Sign

def text : Sign → String
  | minus => "-"
  | plus => "+"

def apply : Sign → Float → Float
  | minus, x => -x
  | plus, x => x

end Sign

inductive Expr : Type
  | number : Float → Expr
  | signed : Sign → Expr → Expr
  | binary : Op → Expr → Expr → Expr

/-- The value, from left to right and from the parts to the whole, if nothing is divided by zero. -/
def Expr.value? : Expr → Option Float
  | number x => some x
  | signed s e => e.value?.map s.apply
  | binary op a b => a.value?.bind fun x => b.value?.bind fun y => op.result? x y

/-- The tokens that stand for an expression at a level. Operations of one level are done from left to
right, since the operand on the right is of the next tighter level. -/
inductive Yields : Level → Expr → List Token → Prop
  | number {t : Token} {x : Float} : t.kind = .number → t.payload = some (.number x) →
      Yields .atom (.number x) [t]
  | parentheses {opening closing : Token} {e : Expr} {ts : List Token} :
      opening.kind = .literal "(" → Yields .sum e ts → closing.kind = .literal ")" →
      Yields .atom e (opening :: (ts ++ [closing]))
  | signed {s : Sign} {t : Token} {e : Expr} {ts : List Token} : t.kind = .literal s.text →
      Yields .unary e ts → Yields .unary (.signed s e) (t :: ts)
  | binary {op : Op} {t : Token} {a b : Expr} {ts us : List Token} : Yields op.level a ts →
      t.kind = .literal op.text → Yields op.level.tighter b us →
      Yields op.level (.binary op a b) (ts ++ t :: us)
  | loosen {l : Level} {e : Expr} {ts : List Token} : Yields l.tighter e ts → Yields l e ts

end Packrat.Calc
