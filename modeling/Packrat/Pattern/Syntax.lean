import Packrat.Pattern.CharSet

namespace Packrat

open Text (Cursor)

inductive Look : Type
  | textStart : Look
  | textEnd : Look
  | lineStart (crlf : Bool) : Look
  | lineEnd (crlf : Bool) : Look
  | wordBoundary : Look
  | notWordBoundary : Look
  | wordStart : Look
  | wordEnd : Look
  | wordStartHalf : Look
  | wordEndHalf : Look
  deriving DecidableEq

namespace Look

def follows (p : Cursor) (q : Char → Bool) : Bool := p.before.head?.any q

def precedes (p : Cursor) (q : Char → Bool) : Bool := p.after.head?.any q

/-- The condition, of the whole text and not only of what is left of it. -/
def holds (p : Cursor) : Look → Bool
  | textStart => p.atStart
  | textEnd => p.atEnd
  | lineStart false => p.atStart || follows p (· == '\n')
  | lineStart true =>
    p.atStart || follows p (· == '\n') || (follows p (· == '\r') && !precedes p (· == '\n'))
  | lineEnd false => p.atEnd || precedes p (· == '\n')
  | lineEnd true =>
    p.atEnd || precedes p (· == '\r') || (precedes p (· == '\n') && !follows p (· == '\r'))
  | wordBoundary => follows p Text.isWord != precedes p Text.isWord
  | notWordBoundary => follows p Text.isWord == precedes p Text.isWord
  | wordStart => !follows p Text.isWord && precedes p Text.isWord
  | wordEnd => follows p Text.isWord && !precedes p Text.isWord
  | wordStartHalf => !follows p Text.isWord
  | wordEndHalf => !precedes p Text.isWord

end Look

inductive Pattern : Type
  | empty : Pattern
  | set : CharSet → Pattern
  | look : Look → Pattern
  | group : Nat → Pattern → Pattern
  | cat : Pattern → Pattern → Pattern
  | alt : Pattern → Pattern → Pattern
  | rep (least : Nat) (most : Option Nat) (greedy : Bool) : Pattern → Pattern
  deriving DecidableEq

namespace Pattern

def cats : List Pattern → Pattern
  | [] => empty
  | [p] => p
  | p :: rest => cat p (cats rest)

def alts : List Pattern → Pattern
  | [] => empty
  | [p] => p
  | p :: rest => alt p (alts rest)

/-- How many groups some match can pass through. What is repeated no time at all has none. -/
def liveGroups : Pattern → Nat
  | empty | set _ | look _ => 0
  | group _ p => p.liveGroups + 1
  | cat p q | alt p q => p.liveGroups + q.liveGroups
  | rep _ most _ p => if most = some 0 then 0 else p.liveGroups

end Pattern

end Packrat
