import Packrat.Decimal.Read
import Packrat.Yaml.Position

namespace Packrat.Yaml

structure Gap : Type where
  spaces : List Char := []
  firstBreak : List Char := []
  moreBreaks : List Char := []
  broken : Bool := false

namespace Gap

/-- A single line break counts as a space, of several the first is dropped. -/
def fold (g : Gap) : List Char :=
  if !g.broken then g.spaces
  else if g.firstBreak = ['\n'] then if g.moreBreaks.isEmpty then [' '] else g.moreBreaks
  else g.firstBreak ++ g.moreBreaks

end Gap

/-- Reads blanks and line breaks. In lines behind the first no tab may stand before column
`indent`. -/
def readGap? (indent : Int) : Nat → Gap → Position → Option (Gap × Position)
  | 0, g, p => some (g, p)
  | fuel + 1, g, p =>
    match p.rest with
    | [] => some (g, p)
    | c :: _ =>
      if isSpace c then
        if g.broken then
          if c = '\t' && p.column < indent then none else readGap? indent fuel g (p.skip 1)
        else readGap? indent fuel { g with spaces := g.spaces ++ [c] } (p.skip 1)
      else if isBreak c then
        let (text, q) := p.readBreak
        if g.broken then readGap? indent fuel { g with moreBreaks := g.moreBreaks ++ text } q
        else readGap? indent fuel { g with spaces := [], firstBreak := text, broken := true } q
      else some (g, p)

def isFlowSign (c : Char) : Bool :=
  c == ',' || c == '[' || c == ']' || c == '\x7b' || c == '\x7d'

def readPlainRun? (flow : Bool) : List Char → Option (List Char)
  | [] => some []
  | c :: rest =>
    let blankNext := match rest with
      | [] => true
      | d :: _ => isSpace d || isBreak d
    if isSpace c || isBreak c then some []
    else if flow && c = ':' && rest.head?.any (fun d => isFlowSign d || d == '?') then none
    else if c = ':' && blankNext then some []
    else if flow && isFlowSign c then some []
    else (readPlainRun? flow rest).map (c :: ·)

def readPlain? (flow : Bool) (indent : Int) :
    Nat → List Char → Gap → Position → Option (List Char × Bool × Position)
  | 0, text, g, p => some (text, g.broken, p)
  | fuel + 1, text, g, p =>
    if p.atDocumentMark || p.starts '#' then some (text, g.broken, p)
    else do
      let run ← readPlainRun? flow p.rest
      let p := p.skip run.length
      let (text, g) := if run.isEmpty then (text, g) else (text ++ g.fold ++ run, {})
      if !(p.spaceNext || p.breakNext) then some (text, g.broken, p)
      else
        let (g, q) ← readGap? indent (p.rest.length + 1) g p
        if !flow && q.column < indent then some (text, g.broken, q)
        else readPlain? flow indent fuel text g q

def escapedChar? : Char → Option Char
  | '0' => some '\x00'
  | 'a' => some '\x07'
  | 'b' => some '\x08'
  | 't' | '\t' => some '\t'
  | 'n' => some '\n'
  | 'v' => some '\x0B'
  | 'f' => some '\x0C'
  | 'r' => some '\r'
  | 'e' => some '\x1B'
  | ' ' => some ' '
  | '"' => some '"'
  | '/' => some '/'
  | '\\' => some '\\'
  | 'N' => some '\x85'
  | '_' => some '\xA0'
  | 'L' => some '\u2028'
  | 'P' => some '\u2029'
  | _ => none

def escapeWidth? : Char → Option Nat
  | 'x' => some 2
  | 'u' => some 4
  | 'U' => some 8
  | _ => none

def readEscape? : List Char → Option (Char × Nat)
  | '\\' :: c :: rest =>
    match escapedChar? c with
    | some d => some (d, 2)
    | none => do
      let width ← escapeWidth? c
      let digits := rest.take width
      if digits.length < width then none
      let n ← Decimal.hexNatural? digits
      if n.isValidChar then some (Char.ofNat n, 2 + width) else none
  | _ => none

def readQuotedRun? (quote : Char) :
    Nat → List Char → Position → Option (List Char × Bool × Position)
  | 0, text, p => some (text, false, p)
  | fuel + 1, text, p =>
    match p.rest with
    | [] => some (text, false, p)
    | c :: rest =>
      if isSpace c || isBreak c then some (text, false, p)
      else if quote = '\'' && c = '\'' && rest.head? = some '\'' then
        readQuotedRun? quote fuel (text ++ ['\'']) (p.skip 2)
      else if c = quote then some (text, false, p)
      else if quote = '"' && c = '\\' then
        if rest.head?.any isBreak then some (text, true, (p.skip 1).skipBreak)
        else do
          let (d, width) ← readEscape? p.rest
          readQuotedRun? quote fuel (text ++ [d]) (p.skip width)
      else readQuotedRun? quote fuel (text ++ [c]) (p.skip 1)

def readQuoted? (quote : Char) : Nat → List Char → Position → Option (List Char × Position)
  | 0, _, _ => none
  | fuel + 1, text, p =>
    if p.atDocumentMark || p.atEnd then none
    else do
      let (text, joined, p) ← readQuotedRun? quote (p.rest.length + 1) text p
      if p.starts quote then some (text, p.skip 1)
      else
        let (g, p) ← readGap? (-1) (p.rest.length + 1) { broken := joined } p
        readQuoted? quote fuel (text ++ g.fold) p

inductive Chomping : Type
  | clip : Chomping
  | strip : Chomping
  | keep : Chomping

def readBlockSigns? (p : Position) : Option (Chomping × Nat × Position) :=
  let sign (p : Position) : Chomping × Position :=
    if p.starts '+' then (.keep, p.skip 1)
    else if p.starts '-' then (.strip, p.skip 1)
    else (.clip, p)
  let depth (p : Position) : Option (Nat × Position) :=
    match p.rest.head? with
    | some c =>
      if c = '0' then none
      else if c.isDigit then some (Decimal.digit c, p.skip 1)
      else some (0, p)
    | none => some (0, p)
  if p.starts '+' || p.starts '-' then do
    let (chomping, p) := sign p
    let (n, p) ← depth p
    some (chomping, n, p)
  else do
    let (n, p) ← depth p
    let (chomping, p) := if n = 0 then (.clip, p) else sign p
    some (chomping, n, p)

/-- Empty lines and the indentation of the next line. Without a known indentation, which is then
`none`, all spaces count. Gives the widest column as well. -/
def readBlockBreaks? (indent : Option Nat) :
    Nat → List Char → Nat → Position → Option (List Char × Nat × Position)
  | 0, breaks, widest, p => some (breaks, widest, p)
  | fuel + 1, breaks, widest, p =>
    let spaces := (p.rest.takeWhile (· == ' ')).length
    let p := p.skip (match indent with | some n => min spaces (n - p.column) | none => spaces)
    let widest := max widest p.column
    let short := match indent with | some n => decide (p.column < n) | none => true
    if short && p.starts '\t' then none
    else if p.breakNext then
      let (text, q) := p.readBreak
      readBlockBreaks? indent fuel (breaks ++ text) widest q
    else some (breaks, widest, p)

structure Block : Type where
  text : List Char := []
  lastBreak : List Char := []
  moreBreaks : List Char := []
  spaced : Bool := false

namespace Block

/-- Adds a line behind the breaks before it. In a folded block a single break between lines that
start with no blank becomes a space. -/
def addLine (b : Block) (literal : Bool) (line : List Char) (lineBreak : List Char) : Block :=
  let spaced := line.head?.any isSpace
  let joint :=
    if !literal && b.lastBreak = ['\n'] && !b.spaced && !spaced then
      if b.moreBreaks.isEmpty then [' '] else []
    else b.lastBreak
  { text := b.text ++ joint ++ b.moreBreaks ++ line
    lastBreak := lineBreak
    moreBreaks := []
    spaced := spaced }

def finish (b : Block) : Chomping → List Char
  | .strip => b.text
  | .clip => b.text ++ b.lastBreak
  | .keep => b.text ++ b.lastBreak ++ b.moreBreaks

end Block

def readBlockLines? (literal : Bool) (indent : Nat) :
    Nat → Block → Position → Option (Block × Position)
  | 0, b, p => some (b, p)
  | fuel + 1, b, p =>
    if p.column = indent && !p.atEnd then do
      let line := p.rest.takeWhile (!isBreak ·)
      let (lineBreak, p) := (p.skip line.length).readBreak
      let b := b.addLine literal line lineBreak
      let (breaks, _, p) ← readBlockBreaks? (some indent) (p.rest.length + 1) [] 0 p
      readBlockLines? literal indent fuel { b with moreBreaks := breaks } p
    else some (b, p)

def readBlock? (literal : Bool) (outer : Int) (p : Position) : Option (List Char × Position) := do
  let (chomping, depth, p) ← readBlockSigns? p
  let p ← p.finishLine?
  let given : Option Nat :=
    if depth = 0 then none else some (if 0 ≤ outer then outer.toNat + depth else depth)
  let (breaks, widest, p) ← readBlockBreaks? given (p.rest.length + 1) [] 0 p
  let indent := given.getD (max widest (max (outer + 1).toNat 1))
  let (b, p) ← readBlockLines? literal indent (p.rest.length + 1) { moreBreaks := breaks } p
  some (b.finish chomping, p)

end Packrat.Yaml
