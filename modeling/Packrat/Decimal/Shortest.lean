/-!
The fewest decimal digits that determine a binary floating-point number.

A finite number is `mantissa * 2 ^ exponent`. All reals nearer to it than to its neighbours read
back as it; among the decimals in that interval the shortest one is chosen, and of two equally
short ones the nearer.
-/

namespace Packrat.Decimal

inductive Parts : Type
  | nan : Parts
  | infinite (negative : Bool) : Parts
  | finite (negative : Bool) (mantissa : Nat) (exponent : Int) : Parts
  deriving DecidableEq

def Parts.ofBits (bits : UInt64) : Parts :=
  let n : Nat := bits.toNat
  let negative := n / Nat.pow 2 63 == 1
  let biased : Nat := n / Nat.pow 2 52 % Nat.pow 2 11
  let fraction : Nat := n % Nat.pow 2 52
  if biased = 2047 then
    if fraction = 0 then .infinite negative else .nan
  else if biased = 0 then .finite negative fraction (-1074)
  else .finite negative (Nat.pow 2 52 + fraction) ((biased : Int) - 1075)

def Parts.ofFloat (x : Float) : Parts := .ofBits x.toBits

structure Digits : Type where
  coefficient : Nat
  exponent : Int
  deriving DecidableEq

namespace Digits

def toList (d : Digits) : List Char := Nat.toDigits 10 d.coefficient

def strip : Nat → Digits → Digits
  | 0, d => d
  | fuel + 1, d =>
    if d.coefficient % 10 = 0 then strip fuel ⟨d.coefficient / 10, d.exponent + 1⟩ else d

def order (d : Digits) : Int := d.exponent + d.toList.length - 1

end Digits

inductive Tie : Type
  | up : Tie
  | even : Tie
  deriving DecidableEq

structure Interval : Type where
  low : Nat
  value : Nat
  high : Nat
  denominator : Nat
  closed : Bool

namespace Interval

/-- Half the distance to each neighbour; below a power of two the neighbours are twice as dense. -/
def ofParts (mantissa : Nat) (exponent : Int) : Interval :=
  let dense := mantissa == Nat.pow 2 52 && exponent > -1074
  let scale := Nat.pow 2 (exponent - 2).toNat
  { low := (4 * mantissa - if dense then 1 else 2) * scale
    value := 4 * mantissa * scale
    high := (4 * mantissa + 2) * scale
    denominator := Nat.pow 2 (2 - exponent).toNat
    closed := mantissa % 2 == 0 }

def holds (i : Interval) (d : Digits) : Bool :=
  let point := d.coefficient * i.denominator * Nat.pow 10 d.exponent.toNat
  let scale := Nat.pow 10 (-d.exponent).toNat
  if i.closed then i.low * scale ≤ point && point ≤ i.high * scale
  else i.low * scale < point && point < i.high * scale

def below (i : Interval) (exponent : Int) : Nat :=
  i.value * Nat.pow 10 (-exponent).toNat / (i.denominator * Nat.pow 10 exponent.toNat)

def order (i : Interval) : Int :=
  if i.denominator ≤ i.value then
    (Nat.toDigits 10 (i.value / i.denominator)).length - 1
  else
    let n := (Nat.toDigits 10 (i.denominator / i.value)).length
    if i.denominator ≤ i.value * Nat.pow 10 (n - 1) then -(n - 1 : Nat) else -n

def nearest? (i : Interval) (tie : Tie) (exponent : Int) : Option Digits :=
  let d := i.below exponent
  let lower : Digits := ⟨d, exponent⟩
  let upper : Digits := ⟨d + 1, exponent⟩
  match i.holds lower, i.holds upper with
  | false, false => none
  | true, false => some lower
  | false, true => some upper
  | true, true =>
    let scale := Nat.pow 10 (-exponent).toNat
    let unit := i.denominator * Nat.pow 10 exponent.toNat
    let past := 2 * (i.value * scale - d * unit)
    if past < unit then some lower
    else if unit < past then some upper
    else match tie with
      | .up => some upper
      | .even => if d % 2 = 0 then some lower else some upper

def shortestFrom (i : Interval) (tie : Tie) : Nat → Int → Digits
  | 0, exponent => ⟨i.below exponent, exponent⟩
  | grids + 1, exponent =>
    match i.nearest? tie exponent with
    | some d => d
    | none => shortestFrom i tie grids (exponent - 1)

end Interval

/-- The shortest decimal that reads back as `mantissa * 2 ^ exponent`; seventeen digits always
suffice. -/
def shortest (tie : Tie) (mantissa : Nat) (exponent : Int) : Digits :=
  if mantissa = 0 then ⟨0, 0⟩
  else
    let i := Interval.ofParts mantissa exponent
    (i.shortestFrom tie 17 i.order).strip 2

end Packrat.Decimal
