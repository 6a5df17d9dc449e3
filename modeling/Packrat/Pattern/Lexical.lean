import Packrat.Decimal.Read
import Packrat.Pattern.Syntax

namespace Packrat.Pattern

inductive Fault : Type
  | groupUnopened : Fault
  | groupUnclosed : Fault
  | groupName : Fault
  | groupNameRepeated (name : String) : Fault
  | lookAround : Fault
  | backReference : Fault
  | flag (c : Char) : Fault
  | flagRepeated : Fault
  | flagDangling : Fault
  | flagUnclosed : Fault
  | nothingToRepeat : Fault
  | countUnclosed : Fault
  | countMissing : Fault
  | countTooLarge : Fault
  | countDescending : Fault
  | escapeUnfinished : Fault
  | escapeUnknown (c : Char) : Fault
  | escapeHex : Fault
  | boundaryUnclosed : Fault
  | boundaryUnknown : Fault
  /-- Sets of characters by property and matching of bytes, which are not read here. -/
  | propertyUnsupported : Fault
  | setUnclosed : Fault
  | setMember : Fault
  | setRange : Fault
  | tooDeep : Fault
  deriving DecidableEq

structure Flags : Type where
  foldCase : Bool := false
  multiLine : Bool := false
  dotAll : Bool := false
  swapGreed : Bool := false
  crlf : Bool := false
  spaced : Bool := false
  deriving DecidableEq

def skipSpace : Bool → List Char → List Char
  | _, [] => []
  | true, c :: rest => skipSpace (c != '\n') rest
  | false, c :: rest =>
    if Text.isBlank c then skipSpace false rest
    else if c = '#' then skipSpace true rest
    else c :: rest

def behindSpace (cs : List Char) : List Char :=
  match cs.dropWhile Text.isBlank with
  | '#' :: rest => rest.dropWhile Text.isBlank
  | rest => rest

namespace Flags

def skip (f : Flags) (cs : List Char) : List Char := if f.spaced then skipSpace false cs else cs

def span (f : Flags) (p : Char → Bool) : Nat → List Char → List Char × List Char
  | 0, cs => ([], cs)
  | _ + 1, [] => ([], [])
  | fuel + 1, c :: rest =>
    if p c then
      let (run, rest) := f.span p fuel (f.skip rest)
      (c :: run, rest)
    else ([], c :: rest)

/-- The character behind the first one, as the end of a range in a set sees it. In spaced mode
blanks and one comment sign are passed over. -/
def peek? (f : Flags) (rest : List Char) : Option Char :=
  if f.spaced then (behindSpace rest).head?.or rest.head? else rest.head?

def literal (f : Flags) (c : Char) : CharSet :=
  if f.foldCase then .folded (.single c) else .single c

def dot (f : Flags) : CharSet :=
  if f.dotAll then .compl .none
  else if f.crlf then .compl (.union (.single '\n') (.single '\r'))
  else .compl (.single '\n')

def start (f : Flags) : Look := if f.multiLine then .lineStart f.crlf else .textStart

def stop (f : Flags) : Look := if f.multiLine then .lineEnd f.crlf else .textEnd

end Flags

def readDecimal (f : Flags) (cs : List Char) : Except Fault Nat × List Char :=
  let cs := cs.dropWhile Text.isBlank
  let (digits, rest) := f.span Char.isDigit cs.length cs
  let n := Decimal.natural digits
  let value :=
    if digits.isEmpty then throw .countMissing
    else if UInt32.size ≤ n then throw .countTooLarge
    else pure n
  (value, f.skip (rest.dropWhile Text.isBlank))

def closeBounds (bounds : Nat × Option Nat) :
    List Char → Except Fault ((Nat × Option Nat) × List Char)
  | '\x7d' :: rest => pure (bounds, rest)
  | _ => throw .countUnclosed

def readMost (f : Flags) (least : Nat) (cs : List Char) :
    Except Fault ((Nat × Option Nat) × List Char) := do
  let (most, cs) := readDecimal f cs
  let most ← most
  let (bounds, rest) ← closeBounds (least, some most) cs
  if most < least then throw .countDescending else pure (bounds, rest)

def readBounds (f : Flags) (cs : List Char) :
    Except Fault ((Nat × Option Nat) × List Char) :=
  match readDecimal f (f.skip cs) with
  | (_, []) => throw .countUnclosed
  | (least, ',' :: rest) =>
    match f.skip rest with
    | [] => throw .countUnclosed
    | '\x7d' :: rest => do pure ((← least, none), rest)
    | cs => do readMost f (← least) cs
  | (count, cs) => do
    let count ← count
    closeBounds (count, some count) cs

def codePoint? (n : Nat) : Option Char := if n.isValidChar then some (Char.ofNat n) else none

def readHexDigits (f : Flags) : Nat → List Char → Except Fault (List Char × List Char)
  | 0, cs => pure ([], cs)
  | _ + 1, [] => throw .escapeUnfinished
  | count + 1, c :: rest => do
    if (Decimal.hexDigit? c).isNone then throw .escapeHex
    let (digits, rest) ← readHexDigits f count (f.skip rest)
    pure (c :: digits, rest)

def hexScalar (digits : List Char) : Except Fault Char :=
  match (Decimal.hexNatural? digits).bind codePoint? with
  | some c => pure c
  | none => throw .escapeHex

def readBracedHex (f : Flags) (cs : List Char) : Except Fault (Char × List Char) :=
  let cs := f.skip cs
  match f.span (fun c => (Decimal.hexDigit? c).isSome) cs.length cs with
  | (_, []) => throw .escapeUnfinished
  | (digits, '\x7d' :: rest) => do
    if digits.isEmpty then throw .escapeHex else pure (← hexScalar digits, f.skip rest)
  | _ => throw .escapeHex

def readHex (f : Flags) (width : Nat) (cs : List Char) : Except Fault (Char × List Char) :=
  match f.skip cs with
  | [] => throw .escapeUnfinished
  | '\x7b' :: rest => readBracedHex f rest
  | cs => do
    let (digits, rest) ← readHexDigits f width cs
    pure (← hexScalar digits, rest)

inductive Primitive : Type
  | char : Char → Primitive
  | set : CharSet → Primitive
  | look : Look → Primitive

def metaChars : List Char :=
  ['\\', '.', '+', '*', '?', '(', ')', '|', '[', ']', '\x7b', '\x7d', '^', '$', '#', '&', '-', '~']

def isMeta (c : Char) : Bool := metaChars.contains c

def isEscapable (c : Char) : Bool :=
  isMeta c || (c.toNat < 0x80 && !c.isAlphanum && c != '<' && c != '>')

def escape (text : List Char) : List Char :=
  text.flatMap fun c => if isMeta c then ['\\', c] else [c]

def isBoundaryChar (c : Char) : Bool := c.isAlpha || c == '-'

def namedBoundary (name : String) : Except Fault Look :=
  match name with
  | "start" => pure .wordStart
  | "end" => pure .wordEnd
  | "start-half" => pure .wordStartHalf
  | "end-half" => pure .wordEndHalf
  | _ => throw .boundaryUnknown

/-- Whether what stands behind `\b` is a name in braces. A brace may open a count too. -/
def opensName (f : Flags) : List Char → Except Fault Bool
  | '\x7b' :: rest =>
    match f.skip rest with
    | [] => throw .boundaryUnclosed
    | c :: _ => pure (isBoundaryChar c)
  | _ => pure false

def readBoundaryName (f : Flags) (cs : List Char) : Except Fault (Look × List Char) :=
  match f.span isBoundaryChar cs.length cs with
  | (name, '\x7d' :: rest) => do pure (← namedBoundary (String.ofList name), rest)
  | _ => throw .boundaryUnclosed

def readBoundary (f : Flags) (cs : List Char) : Except Fault (Look × List Char) := do
  if ← opensName f cs then readBoundaryName f (f.skip cs.tail) else pure (.wordBoundary, cs)

/-- What a backslash and the text behind it stand for. There is no table of properties, so sets by
property (`\p`, `\P`) are refused. What holds whatever the patterns are is stated of every lexer
with the specs of a configuration, not only of those that are made here. -/
def readEscape (f : Flags) : List Char → Except Fault (Primitive × List Char)
  | [] => throw .escapeUnfinished
  | c :: rest =>
    if c.isDigit then throw .backReference
    else if isEscapable c then pure (.char c, rest)
    else match c with
      | 'x' => do let (c, rest) ← readHex f 2 rest; pure (.char c, rest)
      | 'u' => do let (c, rest) ← readHex f 4 rest; pure (.char c, rest)
      | 'U' => do let (c, rest) ← readHex f 8 rest; pure (.char c, rest)
      | 'p' | 'P' => throw .propertyUnsupported
      | 'd' => pure (.set .digit, rest)
      | 'D' => pure (.set (.compl .digit), rest)
      | 's' => pure (.set .blank, rest)
      | 'S' => pure (.set (.compl .blank), rest)
      | 'w' => pure (.set .word, rest)
      | 'W' => pure (.set (.compl .word), rest)
      | 'a' => pure (.char '\x07', rest)
      | 'f' => pure (.char '\x0C', rest)
      | 't' => pure (.char '\t', rest)
      | 'n' => pure (.char '\n', rest)
      | 'r' => pure (.char '\r', rest)
      | 'v' => pure (.char '\x0B', rest)
      | 'A' => pure (.look .textStart, rest)
      | 'z' => pure (.look .textEnd, rest)
      | 'b' => do let (l, rest) ← readBoundary f rest; pure (.look l, rest)
      | 'B' => pure (.look .notWordBoundary, rest)
      | '<' => pure (.look .wordStart, rest)
      | '>' => pure (.look .wordEnd, rest)
      | _ => throw (.escapeUnknown c)

end Packrat.Pattern
