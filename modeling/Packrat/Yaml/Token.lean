import Packrat.Yaml.Scalar

namespace Packrat.Yaml

inductive Token : Type
  | version (major minor : Nat) : Token
  | tagShorthand (handle stem : String) : Token
  | documentStart : Token
  | documentEnd : Token
  | blockSequence : Token
  | blockMapping : Token
  | blockEnd : Token
  | openBracket : Token
  | closeBracket : Token
  | openBrace : Token
  | closeBrace : Token
  | entry : Token
  | comma : Token
  | key : Token
  | value : Token
  | alias (name : String) : Token
  | anchor (name : String) : Token
  | tag (handle suffix : String) : Token
  | scalar (text : String) (plain : Bool) : Token
  deriving DecidableEq

def isTagSign (c : Char) : Bool := ";/?:@&=+$.%!~*'()".toList.contains c

def leadWidth? (n : Nat) : Option Nat :=
  if n < 0x80 then some 1
  else if 0xC0 ≤ n && n < 0xE0 then some 2
  else if 0xE0 ≤ n && n < 0xF0 then some 3
  else if 0xF0 ≤ n && n < 0xF8 then some 4
  else none

def readPercent? : List Char → Option (Nat × List Char)
  | '%' :: a :: b :: rest => (Decimal.hexNatural? [a, b]).map (·, rest)
  | _ => none

def readContinuation? : Nat → Nat → List Char → Option (Nat × List Char)
  | 0, n, cs => some (n, cs)
  | count + 1, n, cs => do
    let (byte, cs) ← readPercent? cs
    if byte / 0x40 ≠ 2 then none
    readContinuation? count (0x40 * n + byte % 0x40) cs

def readPercentChar? (cs : List Char) : Option (Char × List Char) := do
  let (byte, cs) ← readPercent? cs
  let width ← leadWidth? byte
  let lead := if width = 1 then byte else byte % Nat.pow 2 (7 - width)
  let (n, cs) ← readContinuation? (width - 1) lead cs
  some (Char.ofNat n, cs)

/-- The text of a tag; commas and brackets belong to it only when `wide`. -/
def readTagText? (wide : Bool) : Nat → List Char → Option (List Char × List Char)
  | 0, cs => some ([], cs)
  | _ + 1, [] => some ([], [])
  | fuel + 1, c :: rest =>
    if c = '%' then do
      let (d, rest) ← readPercentChar? (c :: rest)
      let (more, rest) ← readTagText? wide fuel rest
      some (d :: more, rest)
    else if isNameChar c || isTagSign c || (wide && (c == ',' || c == '[' || c == ']')) then do
      let (more, rest) ← readTagText? wide fuel rest
      some (c :: more, rest)
    else some ([], c :: rest)

def Position.skipTo (p : Position) (rest : List Char) : Position :=
  p.skip (p.rest.length - rest.length)

def readHandle (cs : List Char) : List Char × List Char :=
  match cs with
  | '!' :: rest =>
    let name := rest.takeWhile isNameChar
    match rest.dropWhile isNameChar with
    | '!' :: rest => ('!' :: name ++ ['!'], rest)
    | rest => ('!' :: name, rest)
  | cs => ([], cs)

def readTag? (flow : Bool) (p : Position) : Option (Token × Position) := do
  let ends (rest : List Char) : Bool :=
    match rest with
    | [] => true
    | c :: _ => isSpace c || isBreak c || (flow && c == ',')
  let make (handle suffix : List Char) (rest : List Char) : Option (Token × Position) :=
    if ends rest then
      some (.tag (String.ofList handle) (String.ofList suffix), p.skipTo rest)
    else none
  match p.rest with
  | '!' :: '<' :: inner =>
    let (text, rest) ← readTagText? true (inner.length + 1) inner
    match rest with
    | '>' :: rest => if text.isEmpty then none else make [] text rest
    | _ => none
  | cs =>
    let (handle, rest) := readHandle cs
    if 1 < handle.length && handle.getLast? = some '!' then
      let (suffix, rest) ← readTagText? false (rest.length + 1) rest
      if suffix.isEmpty then none else make handle suffix rest
    else
      let (more, rest) ← readTagText? false (rest.length + 1) rest
      let suffix := handle.drop 1 ++ more
      if suffix.isEmpty then make [] ['!'] rest else make ['!'] suffix rest

def readName? (p : Position) : Option (String × Position) :=
  let name := (p.rest.drop 1).takeWhile isNameChar
  let q := p.skip (name.length + 1)
  let closes := q.blankAt 0 || q.rest.head?.any (fun c => "?:,]\x7d%@\x60".toList.contains c)
  if name.isEmpty || !closes then none else some (String.ofList name, q)

def readVersionNumber? (p : Position) : Option (Nat × Position) :=
  let digits := p.rest.takeWhile Char.isDigit
  if digits.isEmpty || 9 < digits.length then none
  else some (Decimal.natural digits, p.skip digits.length)

def readDirective? (p : Position) : Option (Token × Position) := do
  let name := (p.rest.drop 1).takeWhile isNameChar
  let p := p.skip (name.length + 1)
  if !p.blankAt 0 then none
  let p := p.skipWhile isSpace
  let (token, p) ← match String.ofList name with
    | "YAML" => do
      let (major, p) ← readVersionNumber? p
      if !p.starts '.' then none
      let (minor, p) ← readVersionNumber? (p.skip 1)
      some (Token.version major minor, p)
    | "TAG" => do
      let (handle, rest) := readHandle p.rest
      if handle.isEmpty || (1 < handle.length && handle.getLast? ≠ some '!') then none
      let p := p.skipTo rest
      if !p.spaceNext then none
      let p := p.skipWhile isSpace
      let (stem, rest) ← readTagText? true (p.rest.length + 1) p.rest
      let p := p.skipTo rest
      if stem.isEmpty || !p.blankAt 0 then none
      some (Token.tagShorthand (String.ofList handle) (String.ofList stem), p)
    | _ => none
  some (token, ← p.finishLine?)

structure KeyStart : Type where
  number : Nat
  required : Bool
  position : Position

structure Layout : Type where
  position : Position
  tokens : Array Token := #[]
  flow : Nat := 0
  indent : Int := -1
  indents : List Int := []
  keyAllowed : Bool := true
  /-- The last place at which a key may have started, for each open bracket and the outside. -/
  keys : List (Option KeyStart) := [none]

namespace Layout

def push (l : Layout) (t : Token) : Layout := { l with tokens := l.tokens.push t }

def insert (l : Layout) (number : Nat) (t : Token) : Layout :=
  { l with
    tokens := (l.tokens.extract 0 number).push t ++ l.tokens.extract number l.tokens.size }

def inFlow (l : Layout) : Bool := 0 < l.flow

def unroll (l : Layout) (column : Int) : Layout :=
  if l.inFlow then l else
    let deeper := (l.indent :: l.indents).takeWhile (column < ·)
    let stay := (l.indent :: l.indents).dropWhile (column < ·)
    { l with
      tokens := l.tokens ++ Array.replicate deeper.length Token.blockEnd
      indent := stay.headD (-1)
      indents := stay.drop 1 }

def roll (l : Layout) (column : Nat) (number : Nat) (t : Token) : Layout :=
  if l.inFlow || (column : Int) ≤ l.indent then l
  else
    { l with indent := column, indents := l.indent :: l.indents }.insert number t

def dropKey? (l : Layout) : Option Layout :=
  match l.keys with
  | some k :: keys => if k.required then none else some { l with keys := none :: keys }
  | _ => some l

def noteKey? (l : Layout) : Option Layout :=
  if l.keyAllowed then do
    let l ← l.dropKey?
    let k : KeyStart :=
      { number := l.tokens.size
        required := !l.inFlow && l.indent == (l.position.column : Int)
        position := l.position }
    some { l with keys := some k :: l.keys.drop 1 }
  else some l

/-- A key ends on its line and within 1024 characters. -/
def dropStaleKeys? (l : Layout) : Option Layout := do
  let keys ← l.keys.mapM fun k => match k with
    | some k =>
      if k.position.line < l.position.line || k.position.index + 1024 < l.position.index then
        if k.required then none else some none
      else some (some k)
    | none => some none
  some { l with keys := keys }

/-- Skips blanks, comments and line breaks. Where a key may start, tabs are no blanks. -/
def skipBlanks : Nat → Layout → Layout
  | 0, l => l
  | fuel + 1, l =>
    let p := l.position
    let p := if p.column = 0 && p.starts '\uFEFF' then p.skip 1 else p
    let p := p.skipWhile fun c => c == ' ' || (c == '\t' && (l.inFlow || !l.keyAllowed))
    let p := if p.starts '#' then p.skipWhile (!isBreak ·) else p
    if p.breakNext then
      skipBlanks fuel { l with position := p.skipBreak, keyAllowed := l.keyAllowed || !l.inFlow }
    else { l with position := p }

def sign (l : Layout) (t : Token) (n : Nat) (keyAllowed : Bool) : Layout :=
  { l.push t with position := l.position.skip n, keyAllowed := keyAllowed }

def documentMark? (l : Layout) (t : Token) : Option Layout := do
  let l ← (l.unroll (-1)).dropKey?
  some (l.sign t 3 false)

def directive? (l : Layout) : Option Layout := do
  let l ← (l.unroll (-1)).dropKey?
  let (t, p) ← readDirective? l.position
  some { l.push t with position := p, keyAllowed := false }

def openFlow? (l : Layout) (t : Token) : Option Layout := do
  let l ← l.noteKey?
  some ({ l with flow := l.flow + 1, keys := none :: l.keys }.sign t 1 true)

def closeFlow? (l : Layout) (t : Token) : Option Layout := do
  let l ← l.dropKey?
  let l := if l.inFlow then { l with flow := l.flow - 1, keys := l.keys.drop 1 } else l
  some (l.sign t 1 false)

def comma? (l : Layout) : Option Layout := do
  let l ← l.dropKey?
  some (l.sign .comma 1 true)

def entry? (l : Layout) : Option Layout := do
  if !l.inFlow && !l.keyAllowed then none
  let l ← (l.roll l.position.column l.tokens.size .blockSequence).dropKey?
  some (l.sign .entry 1 true)

def key? (l : Layout) : Option Layout := do
  if !l.inFlow && !l.keyAllowed then none
  let l ← (l.roll l.position.column l.tokens.size .blockMapping).dropKey?
  some (l.sign .key 1 (!l.inFlow))

/-- The sign of a value turns what stands before it into a key. -/
def value? (l : Layout) : Option Layout :=
  match l.keys with
  | some k :: keys =>
    let l := (l.insert k.number .key).roll k.position.column k.number .blockMapping
    some ({ l with keys := none :: keys }.sign .value 1 false)
  | _ =>
    if !l.inFlow && !l.keyAllowed then none
    else
      let l := l.roll l.position.column l.tokens.size .blockMapping
      some (l.sign .value 1 (!l.inFlow))

def content? (l : Layout) (read : Layout → Option (Token × Position)) : Option Layout := do
  let l ← l.noteKey?
  let (t, p) ← read l
  some { l.push t with position := p, keyAllowed := false }

def block? (l : Layout) (literal : Bool) : Option Layout := do
  let l ← l.dropKey?
  let (text, p) ← readBlock? literal l.indent (l.position.skip 1)
  some { l.push (.scalar (String.ofList text) false) with position := p, keyAllowed := true }

def quoted? (l : Layout) (quote : Char) : Option Layout :=
  l.content? fun l => do
    let p := l.position.skip 1
    let (text, p) ← readQuoted? quote (p.rest.length + 1) [] p
    some (.scalar (String.ofList text) false, p)

def plain? (l : Layout) : Option Layout := do
  let l ← l.noteKey?
  let p := l.position
  let (text, broken, p) ← readPlain? l.inFlow (l.indent + 1) (p.rest.length + 1) [] {} p
  some { l.push (.scalar (String.ofList text) true) with position := p, keyAllowed := broken }

def isIndicator (c : Char) : Bool := "-?:,[]\x7b\x7d#&*!|>'\"%@\x60".toList.contains c

def next? (l : Layout) (c : Char) : Option Layout :=
  let p := l.position
  let spaced := p.blankAt 1
  if p.column = 0 && c = '%' then l.directive?
  else if p.atDocumentMark then
    l.documentMark? (if c = '-' then .documentStart else .documentEnd)
  else if c = '[' then l.openFlow? .openBracket
  else if c = '\x7b' then l.openFlow? .openBrace
  else if c = ']' then l.closeFlow? .closeBracket
  else if c = '\x7d' then l.closeFlow? .closeBrace
  else if c = ',' then l.comma?
  else if c = '-' && spaced then l.entry?
  else if c = '?' && (l.inFlow || spaced) then l.key?
  else if c = ':' && (l.inFlow || spaced) then l.value?
  else if c = '*' then
    l.content? fun l => (readName? l.position).map fun (name, p) => (.alias name, p)
  else if c = '&' then
    l.content? fun l => (readName? l.position).map fun (name, p) => (.anchor name, p)
  else if c = '!' then l.content? fun l => readTag? l.inFlow l.position
  else if c = '|' && !l.inFlow then l.block? true
  else if c = '>' && !l.inFlow then l.block? false
  else if c = '\'' || c = '"' then l.quoted? c
  else if !(isSpace c || isBreak c || isIndicator c) then l.plain?
  else if c = '-' then l.plain?
  else if !l.inFlow && (c = '?' || c = ':') && !spaced then l.plain?
  else none

def run? : Nat → Layout → Option Layout
  | 0, _ => none
  | fuel + 1, l => do
    let l := l.skipBlanks (l.position.rest.length + 1)
    let l ← l.dropStaleKeys?
    let l := l.unroll l.position.column
    match l.position.rest with
    | [] => (l.unroll (-1)).dropKey?
    | c :: _ => run? fuel (← l.next? c)

end Layout

def Token.scan? (text : List Char) : Option (List Token) :=
  if text.all isAllowed then
    let start : Layout := { position := { rest := text } }
    (start.run? (text.length + 1)).map (·.tokens.toList)
  else none

end Packrat.Yaml
