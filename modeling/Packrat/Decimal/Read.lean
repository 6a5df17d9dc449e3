namespace Packrat.Decimal

def digit (c : Char) : Nat := c.toNat - '0'.toNat

def natural (digits : List Char) : Nat := digits.foldl (fun n c => 10 * n + digit c) 0

structure Numeral : Type where
  negative : Bool
  whole : List Char
  fraction : List Char
  exponent : Int

def readExponent? : List Char → Option Int
  | [] => some 0
  | e :: rest =>
    if e = 'e' || e = 'E' then
      let (negative, digits) := match rest with
        | '-' :: ds => (true, ds)
        | '+' :: ds => (false, ds)
        | ds => (false, ds)
      if digits.isEmpty || !digits.all Char.isDigit then none
      else some (if negative then -(natural digits : Int) else natural digits)
    else none

def readNumeral? (text : List Char) : Option Numeral :=
  let (negative, body) := match text with
    | '-' :: cs => (true, cs)
    | '+' :: cs => (false, cs)
    | cs => (false, cs)
  let whole := body.takeWhile Char.isDigit
  let (fraction, rest) := match body.dropWhile Char.isDigit with
    | '.' :: cs => (cs.takeWhile Char.isDigit, cs.dropWhile Char.isDigit)
    | cs => ([], cs)
  if whole.isEmpty && fraction.isEmpty then none
  else (readExponent? rest).map fun exponent => ⟨negative, whole, fraction, exponent⟩

/-- The floating-point number nearest to `coefficient * 10 ^ exponent`. Beyond four hundred orders
of magnitude the answer is zero or infinite whatever the digits are. -/
def nearest (coefficient : Nat) (exponent : Int) : Float :=
  let order : Int := (Nat.toDigits 10 coefficient).length + exponent
  if coefficient = 0 || order < -400 then 0.0
  else if 400 < order then 1.0 / 0.0
  else Float.ofScientific coefficient (exponent < 0) exponent.natAbs

def Numeral.toFloat (n : Numeral) : Float :=
  let x := nearest (natural (n.whole ++ n.fraction)) (n.exponent - n.fraction.length)
  if n.negative then -x else x

def read? (text : String) : Option Float := (readNumeral? text.toList).map Numeral.toFloat

def hexDigit? (c : Char) : Option Nat :=
  if c.isDigit then some (digit c)
  else if 'a' ≤ c ∧ c ≤ 'f' then some (c.toNat - 'a'.toNat + 10)
  else if 'A' ≤ c ∧ c ≤ 'F' then some (c.toNat - 'A'.toNat + 10)
  else none

def hexNatural? (digits : List Char) : Option Nat :=
  digits.foldl (fun n c => n.bind fun n => (hexDigit? c).map (16 * n + ·)) (some 0)

end Packrat.Decimal
