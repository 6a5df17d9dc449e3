import Packrat.Decimal.Layout

namespace Packrat

/-- A JSON value. A number is kept as it is written. A string or key is missing where its escapes
give half of a surrogate pair, since no text holds such a thing. -/
inductive Json : Type
  | null : Json
  | bool : Bool → Json
  | number : List Char → Json
  | string : Option String → Json
  | array : List Json → Json
  | object : List (Option String × Json) → Json
  deriving Inhabited

namespace Json

def text (s : String) : Json := string (some s)

def ofNat (n : Nat) : Json := number (Nat.toDigits 10 n)

def ofFloat (x : Float) : Json :=
  match Decimal.Parts.ofFloat x with
  | .finite _ _ _ => number (Decimal.render .data x).toList
  | _ => null

def record (fields : List (String × Json)) : Json := object (fields.map fun (k, v) => (some k, v))

def hexByte (n : Nat) : List Char :=
  [Nat.digitChar (n / 16), Nat.digitChar (n % 16)]

def escaped (c : Char) : List Char :=
  if c = '"' then ['\\', '"']
  else if c = '\\' then ['\\', '\\']
  else if c = '\x08' then ['\\', 'b']
  else if c = '\x0C' then ['\\', 'f']
  else if c = '\n' then ['\\', 'n']
  else if c = '\r' then ['\\', 'r']
  else if c = '\t' then ['\\', 't']
  else if c.toNat < 0x20 then ['\\', 'u', '0', '0'] ++ hexByte c.toNat
  else [c]

def writeText (s : String) : List Char := '"' :: s.toList.flatMap escaped ++ ['"']

structure Style : Type where
  lead : Nat → List Char
  colon : List Char

def compact : Style := ⟨fun _ => [], [':']⟩

def pretty : Style := ⟨fun depth => '\n' :: List.replicate (2 * depth) ' ', [':', ' ']⟩

mutual

def write (style : Style) (depth : Nat) : Json → List Char
  | null => "null".toList
  | bool b => (if b then "true" else "false").toList
  | number cs => cs
  | string s => writeText (s.getD "")
  | array [] => ['[', ']']
  | array (v :: vs) =>
    '[' :: style.lead (depth + 1) ++ v.write style (depth + 1) ++ writeItems style (depth + 1) vs ++
      style.lead depth ++ [']']
  | object [] => ['\x7b', '\x7d']
  | object ((k, v) :: fields) =>
    '\x7b' :: style.lead (depth + 1) ++ writeText (k.getD "") ++ style.colon ++
      v.write style (depth + 1) ++ writeFields style (depth + 1) fields ++
      style.lead depth ++ ['\x7d']

def writeItems (style : Style) (depth : Nat) : List Json → List Char
  | [] => []
  | v :: vs => ',' :: style.lead depth ++ v.write style depth ++ writeItems style depth vs

def writeFields (style : Style) (depth : Nat) : List (Option String × Json) → List Char
  | [] => []
  | (k, v) :: fields =>
    ',' :: style.lead depth ++ writeText (k.getD "") ++ style.colon ++ v.write style depth ++
      writeFields style depth fields

end

def render (j : Json) : String := String.ofList (j.write compact 0)

def renderPretty (j : Json) : String := String.ofList (j.write pretty 0)

end Json

end Packrat
