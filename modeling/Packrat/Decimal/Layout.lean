import Packrat.Decimal.Shortest

namespace Packrat.Decimal

structure Layout : Type where
  tie : Tie
  /-- Orders of magnitude from `least` to `greatest` are written without an exponent. -/
  least : Option Int
  greatest : Option Int
  pointed : Bool
  nan : String
  infinity : String
  negativeInfinity : String

namespace Layout

def plain : Layout where
  tie := .up
  least := none
  greatest := none
  pointed := false
  nan := "NaN"
  infinity := "inf"
  negativeInfinity := "-inf"

/-- The form of numbers in data files: a point or an exponent in each, `null` for what is no
number. -/
def data : Layout where
  tie := .even
  least := some (-5)
  greatest := some 15
  pointed := true
  nan := "null"
  infinity := "null"
  negativeInfinity := "null"

def positional (l : Layout) (order : Int) : Bool :=
  (match l.least with | some n => decide (n ≤ order) | none => true) &&
    (match l.greatest with | some n => decide (order ≤ n) | none => true)

end Layout

namespace Digits

def positional (d : Digits) (pointed : Bool) : List Char :=
  let digits := d.toList
  if 0 ≤ d.exponent then
    digits ++ List.replicate d.exponent.toNat '0' ++ (if pointed then ['.', '0'] else [])
  else
    let places := (-d.exponent).toNat
    if places < digits.length then
      digits.take (digits.length - places) ++ '.' :: digits.drop (digits.length - places)
    else
      '0' :: '.' :: List.replicate (places - digits.length) '0' ++ digits

def scientific (d : Digits) : List Char :=
  let fraction := d.toList.drop 1
  let order := d.order
  d.toList.take 1 ++ (if fraction.isEmpty then [] else '.' :: fraction) ++
    'e' :: (if 0 ≤ order then '+' else '-') :: Nat.toDigits 10 order.natAbs

end Digits

def render (layout : Layout) (x : Float) : String :=
  match Parts.ofFloat x with
  | .nan => layout.nan
  | .infinite false => layout.infinity
  | .infinite true => layout.negativeInfinity
  | .finite negative mantissa exponent =>
    let d := shortest layout.tie mantissa exponent
    let text :=
      if layout.positional d.order then d.positional layout.pointed else d.scientific
    String.ofList (if negative then '-' :: text else text)

end Packrat.Decimal
