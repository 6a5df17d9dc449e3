import Packrat.Lexer

namespace Packrat

open Text (Cursor)

structure Place : Type where
  source : String
  cursor : Cursor
  line : Nat

namespace Place

def start (source : String) (text : String) : Place := ⟨source, .ofText text.toList, 1⟩

def marker (p : Place) (stop : Nat) : Marker := .span p.source p.cursor.offset stop p.line

def charsUpTo (stop offset : Nat) : List Char → List Char
  | [] => []
  | c :: rest => if offset < stop then c :: charsUpTo stop (offset + c.utf8Size) rest else []

def textTo (p : Place) (q : Cursor) : List Char :=
  charsUpTo q.offset p.cursor.offset p.cursor.after

def advance (p : Place) (text : List Char) (q : Cursor) : Place :=
  { p with cursor := q, line := p.line + text.count '\n' }

def eof (p : Place) : Token := { marker := p.marker p.cursor.offset, kind := .eof }

end Place

namespace Lexer

/-- The number of the spec that a match at a place is taken for, and where the match ends. An empty
match is none. -/
def branch? (lexer : Lexer) (p : Cursor) : Option (Nat × Cursor) :=
  match lexer.pattern.matchAt? p with
  | none => none
  | some r =>
    match lexer.groups.findIdx? r.passed with
    | some i => if p.offset < r.cursor.offset then some (i, r.cursor) else none
    | none => none

def perform (lexer : Lexer) (action : Action) (text : List Char) (marker : Marker) :
    Except Error (List Token) :=
  let word := String.ofList text
  let one (kind : Kind) (payload : Option Payload) : Except Error (List Token) :=
    pure [{ marker := marker, kind := kind, payload := payload }]
  let invalid (what : String) : Except Error (List Token) :=
    throw { cause := .invalidLiteral what word, marker := some marker }
  match action with
  | .skip => pure []
  | .newline => one .newline none
  | .identifier =>
    if lexer.keywords.contains word then one (.literal word) none
    else one .name (some (.text word))
  | .hexNumber =>
    match Literal.hex? text with
    | some x => one .number (some (.number x))
    | none => invalid "hex literal"
  | .decimal =>
    match Literal.decimal? text with
    | some x => one .number (some (.number x))
    | none => invalid "number"
  | .quotedString =>
    match Literal.string? text with
    | some s => one .string (some (.text (String.ofList s)))
    | none => invalid "string escape"
  | .literal => one (.literal word) none
  | .reject => throw { cause := .unrecognizedToken word, marker := some marker }
  | .custom f => f ⟨word, marker⟩

def keeps (lexer : Lexer) (t : Token) : Bool := !(t.kind == .newline && lexer.newlines == .ignore)

/-- The tokens of the lexeme at a place, and the place behind it, when the number of its spec and its
end are known. Without them the lexer is stalled. -/
def stepTo (lexer : Lexer) (p : Place) (branch : Option (Nat × Cursor)) :
    Except Error (List Token × Place) :=
  match branch.bind fun (i, q) => lexer.specs[i]?.map (·, q) with
  | none =>
    let rest := p.cursor.after
    let text := (Text.words rest).head?.getD rest
    throw {
      cause := .stalled (String.ofList text)
      marker := some (p.marker p.cursor.offset) }
  | some (spec, q) => do
    let text := p.textTo q
    let tokens ← lexer.perform spec.action text (p.marker q.offset)
    pure (tokens.filter lexer.keeps, p.advance text q)

def step (lexer : Lexer) (p : Place) : Except Error (List Token × Place) :=
  lexer.stepTo p (lexer.branch? p.cursor)

def tokensFrom (lexer : Lexer) : Nat → Place → List Token × Except Error Token
  | 0, p => ([], pure p.eof)
  | fuel + 1, p =>
    if p.cursor.atEnd then ([], pure p.eof)
    else match lexer.step p with
      | .error e => ([], throw e)
      | .ok (tokens, q) =>
        let (more, last) := lexer.tokensFrom fuel q
        (tokens ++ more, last)

def list (lexer : Lexer) (source text : String) : Except Error (List Token) :=
  let p := Place.start source text
  match lexer.tokensFrom p.cursor.after.length p with
  | (tokens, .ok eof) => pure (tokens ++ [eof])
  | (_, .error e) => throw e

end Lexer

structure Scan : Type where
  place : Place
  pending : List Token := []
  finished : Bool := false

namespace Scan

def start (source text : String) : Scan := { place := .start source text }

/-- The next token or error, if there is one. Each round takes a character, so `fuel` is a bound
on the rounds. -/
def nextWithin (lexer : Lexer) : Nat → Scan → Option (Except Error Token) × Scan
  | fuel, s =>
    match s.pending with
    | t :: rest => (some (pure t), { s with pending := rest })
    | [] =>
      if s.finished then (none, s)
      else if s.place.cursor.atEnd then (some (pure s.place.eof), { s with finished := true })
      else match fuel with
        | 0 => (none, s)
        | fuel + 1 =>
          match lexer.step s.place with
          | .error e => (some (throw e), { s with finished := true })
          | .ok (tokens, q) => nextWithin lexer fuel { s with place := q, pending := tokens }

def next (lexer : Lexer) (s : Scan) : Option (Except Error Token) × Scan :=
  nextWithin lexer s.place.cursor.after.length s

def rest (lexer : Lexer) (s : Scan) : List (Except Error Token) × Scan :=
  let pending := s.pending.map pure
  let items :=
    if s.finished then pending
    else
      let (tokens, last) := lexer.tokensFrom s.place.cursor.after.length s.place
      pending ++ tokens.map pure ++ [last]
  (items, { s with pending := [], finished := true })

end Scan

end Packrat
