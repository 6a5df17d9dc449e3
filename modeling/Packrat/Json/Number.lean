import Packrat.Decimal.Read
import Packrat.Json

/-!
The values of JSON numbers: whole numbers of 64 bits, and floating-point numbers.

A floating-point number is taken from at most nineteen or twenty leading digits, by one
multiplication with a power of ten or by divisions, so the last bit may differ from the nearest
number.
-/

namespace Packrat.Json

structure NumberParts : Type where
  negative : Bool
  whole : List Char
  fraction : List Char
  exponent : Option (Bool × List Char)

def NumberParts.ofText (cs : List Char) : NumberParts :=
  let (negative, cs) := match cs with
    | '-' :: rest => (true, rest)
    | cs => (false, cs)
  let (fraction, rest) := match cs.dropWhile Char.isDigit with
    | '.' :: rest => (rest.takeWhile Char.isDigit, rest.dropWhile Char.isDigit)
    | rest => ([], rest)
  let exponent := match rest with
    | _ :: '-' :: digits => some (true, digits)
    | _ :: '+' :: digits => some (false, digits)
    | _ :: digits => some (false, digits)
    | [] => none
  ⟨negative, cs.takeWhile Char.isDigit, fraction, exponent⟩

def absorb (n : Nat) : List Char → Nat × List Char
  | [] => (n, [])
  | d :: rest =>
    let m := 10 * n + Decimal.digit d
    if m < UInt64.size then absorb m rest else (n, d :: rest)

def scale? : Nat → Float → Int → Option Float
  | 0, _, _ => some 0.0
  | fuel + 1, x, exponent =>
    if exponent.natAbs ≤ 308 then
      let power := Float.ofScientific 1 false exponent.natAbs
      if 0 ≤ exponent then
        let y := x * power
        if y.isInf then none else some y
      else some (x / power)
    else if x == 0.0 then some x
    else if 0 ≤ exponent then none
    else scale? fuel (x / 1e308) (exponent + 308)

namespace NumberParts

def isWhole (p : NumberParts) : Bool := p.fraction.isEmpty && p.exponent.isNone

def natural? (p : NumberParts) : Option Nat :=
  let n := Decimal.natural p.whole
  if p.isWhole && !p.negative && n < UInt64.size then some n else none

def magnitude? (p : NumberParts) : Option Float :=
  let (n, spare) := absorb 0 p.whole
  if p.isWhole && spare.isEmpty then some n.toUInt64.toFloat
  else
    let (n, left) := absorb n p.fraction
    let places : Int := (spare.length : Int) - (p.fraction.length - left.length : Nat)
    let x := n.toUInt64.toFloat
    match p.exponent with
    | none => scale? 4 x places
    | some (down, digits) =>
      let e := Decimal.natural digits
      if Nat.pow 2 31 ≤ e then if n != 0 && !down then none else some 0.0
      else scale? 4 x (if down then places - e else places + e)

def float? (p : NumberParts) : Option Float :=
  p.magnitude?.map fun x => if p.negative then -x else x

end NumberParts

def natural? : Json → Option Nat
  | number cs => (NumberParts.ofText cs).natural?
  | _ => none

def float? : Json → Option Float
  | number cs => (NumberParts.ofText cs).float?
  | _ => none

end Packrat.Json
