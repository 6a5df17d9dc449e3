namespace Packrat.Yaml

def isSpace (c : Char) : Bool := c == ' ' || c == '\t'

def isBreak (c : Char) : Bool :=
  c == '\r' || c == '\n' || c == '\x85' || c == '\u2028' || c == '\u2029'

def isNameChar (c : Char) : Bool := c.isAlphanum || c == '_' || c == '-'

def isAllowed (c : Char) : Bool :=
  let n := c.toNat
  n == 0x9 || n == 0xA || n == 0xD || (0x20 ≤ n && n ≤ 0x7E) || n == 0x85 ||
    (0xA0 ≤ n && n ≤ 0xD7FF) || (0xE000 ≤ n && n ≤ 0xFFFD) || 0x10000 ≤ n

structure Position : Type where
  rest : List Char
  index : Nat := 0
  line : Nat := 0
  column : Nat := 0

namespace Position

def peek? (p : Position) (n : Nat) : Option Char := p.rest[n]?

def starts (p : Position) (c : Char) : Bool := p.rest.head? == some c

def atEnd (p : Position) : Bool := p.rest.isEmpty

def blankAt (p : Position) (n : Nat) : Bool :=
  match p.peek? n with
  | some c => isSpace c || isBreak c
  | none => true

def spaceNext (p : Position) : Bool := p.rest.head?.any isSpace

def breakNext (p : Position) : Bool := p.rest.head?.any isBreak

def lineEnds (p : Position) : Bool := p.atEnd || p.breakNext

def skip (p : Position) (n : Nat) : Position :=
  { p with rest := p.rest.drop n, index := p.index + n, column := p.column + n }

def skipWhile (p : Position) (q : Char → Bool) : Position := p.skip (p.rest.takeWhile q).length

def readBreak (p : Position) : List Char × Position :=
  let below (n : Nat) : Position :=
    { rest := p.rest.drop n, index := p.index + n, line := p.line + 1, column := 0 }
  match p.rest with
  | '\r' :: '\n' :: _ => (['\n'], below 2)
  | c :: _ =>
    if c = '\u2028' || c = '\u2029' then ([c], below 1)
    else if isBreak c then (['\n'], below 1)
    else ([], p)
  | [] => ([], p)

def skipBreak (p : Position) : Position := p.readBreak.2

def atDocumentMark (p : Position) : Bool :=
  p.column == 0 && ("---".toList.isPrefixOf p.rest || "...".toList.isPrefixOf p.rest) &&
    p.blankAt 3

def finishLine? (p : Position) : Option Position :=
  let p := p.skipWhile isSpace
  let p := if p.starts '#' then p.skipWhile (!isBreak ·) else p
  if p.lineEnds then some p.skipBreak else none

end Position

end Packrat.Yaml
