import Packrat.Lexer.Scan
import Mathlib.Data.List.MinMax

/-! Scanning without patterns: what a lexer without specs of its own reads, character by character.
Each rule takes some text off the front or does not apply, and the first that applies is taken. -/

namespace Packrat.Direct

open Text (byteSize)

def isBlank (c : Char) : Bool := c == ' ' || c == '\t' || c == '\r'

def isWordStart (c : Char) : Bool := c.isAlpha || c == '_'

def isWordPart (c : Char) : Bool := c.isAlphanum || c == '_'

def isHexDigit (c : Char) : Bool := c.isDigit || ('a' ≤ c && c ≤ 'f') || ('A' ≤ c && c ≤ 'F')

def run? (p : Char → Bool) : List Char → Option (List Char)
  | [] => none
  | c :: cs => if p c then some (c :: cs.takeWhile p) else none

def word? : List Char → Option (List Char)
  | [] => none
  | c :: cs => if isWordStart c then some (c :: cs.takeWhile isWordPart) else none

def hexNumber? : List Char → Option (List Char)
  | '0' :: 'x' :: cs => (run? isHexDigit cs).map fun digits => '0' :: 'x' :: digits
  | _ => none

def sign : List Char → List Char
  | '+' :: _ => ['+']
  | '-' :: _ => ['-']
  | _ => []

def exponent : List Char → List Char
  | 'e' :: cs =>
    match run? Char.isDigit (cs.drop (sign cs).length) with
    | some digits => 'e' :: sign cs ++ digits
    | none => []
  | _ => []

def fraction? (cs : List Char) : Option (List Char) :=
  match cs.dropWhile Char.isDigit with
  | '.' :: rest => (run? Char.isDigit rest).map fun digits =>
    cs.takeWhile Char.isDigit ++ '.' :: digits ++ exponent (rest.dropWhile Char.isDigit)
  | _ => none

def wholeNumber? (cs : List Char) : Option (List Char) :=
  (run? Char.isDigit cs).map fun digits => digits ++ exponent (cs.dropWhile Char.isDigit)

/-- The text through the first `q` without a backslash before it; the flag says whether there is one
before the text. -/
def throughBare? (q : Char) : Bool → List Char → Option (List Char)
  | _, [] => none
  | behindBackslash, c :: cs =>
    if c = q ∧ !behindBackslash then some [c]
    else (throughBare? q (c == '\\') cs).map fun text => c :: text

def throughLast? (q : Char) : List Char → Option (List Char)
  | [] => none
  | c :: cs =>
    match throughLast? q cs with
    | some text => some (c :: text)
    | none => if c = q then some [c] else none

def quoted? (q : Char) : List Char → Option (List Char)
  | [] => none
  | c :: cs =>
    if c = q then ((throughBare? q false cs).or (throughLast? q cs)).map fun text => c :: text
    else none

def longest? (texts : List (List Char)) (cs : List Char) : Option (List Char) :=
  (texts.filter fun text => text.isPrefixOf cs).argmax List.length

/-- The text that a rule takes off the front, and the token that it makes of a text at a marker. -/
structure Rule : Type where
  read? : List Char → Option (List Char)
  token? : List Char → Marker → Except Error (Option Token)

namespace Rule

def ofValue (kind : Kind) (name : String) (value? : List Char → Option Payload)
    (read? : List Char → Option (List Char)) : Rule where
  read? := read?
  token? text marker :=
    match value? text with
    | some value => pure (some ⟨marker, kind, some value⟩)
    | none => throw {
        cause := .invalidLiteral name (String.ofList text)
        marker := some marker }

def blanks : Rule where
  read? := run? isBlank
  token? _ _ := pure none

def lineBreaks (newlines : Newlines) : Rule where
  read? := run? (· == '\n')
  token? _ marker := pure (if newlines = .ignore then none else some ⟨marker, .newline, none⟩)

def word (keywords : List String) : Rule where
  read? := word?
  token? text marker :=
    let word := String.ofList text
    pure (some (if word ∈ keywords then ⟨marker, .literal word, none⟩
      else ⟨marker, .name, some (.text word)⟩))

def hexNumber : Rule :=
  ofValue .number "hex literal" (fun text => (Literal.hex? text).map .number) hexNumber?

def decimal (read? : List Char → Option (List Char)) : Rule :=
  ofValue .number "number" (fun text => (Literal.decimal? text).map .number) read?

def quoted (q : Char) : Rule :=
  ofValue .string "string escape"
    (fun text => (Literal.string? text).map fun s => .text (String.ofList s)) (quoted? q)

def literal (literals : List String) : Rule where
  read? := longest? (literals.map String.toList)
  token? text marker := pure (some ⟨marker, .literal (String.ofList text), none⟩)

end Rule

def rules (c : Config) : List Rule := [
  .blanks,
  .lineBreaks c.newlines,
  .word c.keywords,
  .hexNumber,
  .decimal fraction?,
  .decimal wholeNumber?,
  .quoted '"',
  .quoted '\'',
  .literal c.literals]

def first? (rules : List Rule) (cs : List Char) : Option (Rule × List Char) :=
  rules.findSome? fun rule => (rule.read? cs).map fun text => (rule, text)

/-- The text at the front and what it gives at a marker. Where no rule applies it goes up to the next
blank character, and it is unknown. -/
def item (c : Config) (ch : Char) (cs : List Char) :
    List Char × (Marker → Except Error (Option Token)) :=
  match first? (rules c) (ch :: cs) with
  | some (rule, text) => (text, rule.token? text)
  | none =>
    let text := ch :: cs.takeWhile fun c => !Text.isBlank c
    (text, fun marker => throw {
      cause := .unrecognizedToken (String.ofList text)
      marker := some marker })

def scanFrom (c : Config) (source : String) (offset line : Nat) :
    List Char → Except Error (List Token)
  | [] => pure [⟨.span source offset offset line, .eof, none⟩]
  | ch :: cs => do
    let (text, token?) := item c ch cs
    let stop := offset + byteSize text
    let token ← token? (.span source offset stop line)
    let more ← scanFrom c source stop (line + text.count '\n') (cs.drop (text.length - 1))
    pure (token.toList ++ more)
termination_by cs => cs.length
decreasing_by simp only [List.length_drop, List.length_cons]; omega

def scan (c : Config) (source text : String) : Except Error (List Token) :=
  scanFrom c source 0 1 text.toList

end Packrat.Direct
