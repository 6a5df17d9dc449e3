import Packrat.Decimal.Read
import Packrat.Json

namespace Packrat.Json

def isSpace (c : Char) : Bool := c == ' ' || c == '\t' || c == '\n' || c == '\r'

def skip (cs : List Char) : List Char := cs.dropWhile isSpace

/-- A character of a string, or one unit of a pair that escapes give. -/
inductive Piece : Type
  | char : Char → Piece
  | unit : Nat → Piece

def unescaped? : Char → Option Char
  | '"' => some '"'
  | '\\' => some '\\'
  | '/' => some '/'
  | 'b' => some '\x08'
  | 'f' => some '\x0C'
  | 'n' => some '\n'
  | 'r' => some '\r'
  | 't' => some '\t'
  | _ => none

def readPieces? : List Char → Option (List Piece × List Char)
  | [] => none
  | '"' :: rest => some ([], rest)
  | '\\' :: 'u' :: a :: b :: c :: d :: rest => do
    let n ← Decimal.hexNatural? [a, b, c, d]
    let (pieces, rest) ← readPieces? rest
    some (.unit n :: pieces, rest)
  | '\\' :: e :: rest => do
    let c ← unescaped? e
    let (pieces, rest) ← readPieces? rest
    some (.char c :: pieces, rest)
  | c :: rest => do
    if c.toNat < 0x20 || c = '\\' then none
    let (pieces, rest) ← readPieces? rest
    some (.char c :: pieces, rest)

/-- The text that pieces make up. Units in the surrogate ranges only come in pairs. -/
def decode? : List Piece → Option (List Char)
  | [] => some []
  | .char c :: rest => (decode? rest).map (c :: ·)
  | .unit high :: rest =>
    if high < 0xD800 || 0xDFFF < high then (decode? rest).map (Char.ofNat high :: ·)
    else match rest with
      | .unit low :: rest =>
        if high < 0xDC00 && 0xDC00 ≤ low && low ≤ 0xDFFF then
          let n := 0x10000 + (high - 0xD800) * 0x400 + (low - 0xDC00)
          (decode? rest).map (Char.ofNat n :: ·)
        else none
      | _ => none

def readString? (cs : List Char) : Option (Option String × List Char) :=
  (readPieces? cs).map fun (pieces, rest) => ((decode? pieces).map String.ofList, rest)

def readNumber? (cs : List Char) : Option (List Char × List Char) := do
  let (sign, cs) := match cs with
    | '-' :: rest => (['-'], rest)
    | cs => ([], cs)
  let whole := cs.takeWhile Char.isDigit
  if whole.isEmpty || (whole.head? == some '0' && 1 < whole.length) then none
  let (fraction, cs) := match cs.dropWhile Char.isDigit with
    | '.' :: rest => ('.' :: rest.takeWhile Char.isDigit, rest.dropWhile Char.isDigit)
    | cs => ([], cs)
  if fraction.length = 1 then none
  let (mark, cs) := match cs with
    | e :: s :: rest =>
      if e = 'e' || e = 'E' then
        if s = '+' || s = '-' then ([e, s], rest) else ([e], s :: rest)
      else ([], cs)
    | [e] => if e = 'e' || e = 'E' then ([e], []) else ([], cs)
    | [] => ([], [])
  if mark.isEmpty then some (sign ++ whole ++ fraction, cs)
  else
    let digits := cs.takeWhile Char.isDigit
    if digits.isEmpty then none
    else some (sign ++ whole ++ fraction ++ mark ++ digits, cs.dropWhile Char.isDigit)

def readWord? (word : String) (value : Json) (cs : List Char) : Option (Json × List Char) :=
  if word.toList.isPrefixOf cs then some (value, cs.drop word.length) else none

mutual

def readValue? : Nat → List Char → Option (Json × List Char)
  | 0, _ => none
  | fuel + 1, cs =>
    match skip cs with
    | '"' :: rest => (readString? rest).map fun (s, rest) => (string s, rest)
    | '[' :: rest =>
      match skip rest with
      | ']' :: rest => some (array [], rest)
      | cs => (readItems? fuel cs).map fun (vs, rest) => (array vs, rest)
    | '\x7b' :: rest =>
      match skip rest with
      | '\x7d' :: rest => some (object [], rest)
      | cs => (readFields? fuel cs).map fun (fields, rest) => (object fields, rest)
    | 'n' :: rest => readWord? "null" null ('n' :: rest)
    | 't' :: rest => readWord? "true" (bool true) ('t' :: rest)
    | 'f' :: rest => readWord? "false" (bool false) ('f' :: rest)
    | cs => (readNumber? cs).map fun (n, rest) => (number n, rest)

def readItems? : Nat → List Char → Option (List Json × List Char)
  | 0, _ => none
  | fuel + 1, cs => do
    let (v, rest) ← readValue? fuel cs
    match skip rest with
    | ']' :: rest => some ([v], rest)
    | ',' :: rest =>
      let (vs, rest) ← readItems? fuel rest
      some (v :: vs, rest)
    | _ => none

def readFields? : Nat → List Char → Option (List (Option String × Json) × List Char)
  | 0, _ => none
  | fuel + 1, cs => do
    match skip cs with
    | '"' :: rest =>
      let (key, rest) ← readString? rest
      match skip rest with
      | ':' :: rest =>
        let (v, rest) ← readValue? fuel rest
        match skip rest with
        | '\x7d' :: rest => some ([(key, v)], rest)
        | ',' :: rest =>
          let (fields, rest) ← readFields? fuel rest
          some ((key, v) :: fields, rest)
        | _ => none
      | _ => none
    | _ => none

end

def read? (text : List Char) : Option Json :=
  match readValue? (2 * text.length + 2) text with
  | some (v, rest) => if (skip rest).isEmpty then some v else none
  | none => none

end Packrat.Json
