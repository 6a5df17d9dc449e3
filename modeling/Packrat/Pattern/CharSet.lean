import Packrat.Text.Fold
import Packrat.Text.Word

namespace Packrat

inductive CharSet : Type
  | none : CharSet
  | single : Char → CharSet
  | range : Char → Char → CharSet
  | digit : CharSet
  | blank : CharSet
  | word : CharSet
  | union : CharSet → CharSet → CharSet
  | inter : CharSet → CharSet → CharSet
  | diff : CharSet → CharSet → CharSet
  | symm : CharSet → CharSet → CharSet
  | compl : CharSet → CharSet
  | folded : CharSet → CharSet
  deriving DecidableEq

namespace CharSet

/-- Membership; a folded set holds every character that differs from a member in case only. -/
def mem : CharSet → Char → Bool
  | none, _ => false
  | single a, c => c == a
  | range a b, c => a ≤ c && c ≤ b
  | digit, c => Text.isDecimalDigit c
  | blank, c => Text.isBlank c
  | word, c => Text.isWord c
  | union s t, c => s.mem c || t.mem c
  | inter s t, c => s.mem c && t.mem c
  | diff s t, c => s.mem c && !t.mem c
  | symm s t, c => s.mem c != t.mem c
  | compl s, c => !s.mem c
  | folded s, c => (Text.caseVariants c).any s.mem

def unions : List CharSet → CharSet
  | [] => none
  | [s] => s
  | s :: rest => union s (unions rest)

def ofRanges (rs : List (Char × Char)) : CharSet := unions (rs.map fun (a, b) => range a b)

def close (fold negated : Bool) (s : CharSet) : CharSet :=
  let s := if fold then folded s else s
  if negated then compl s else s

def named? (name : String) : Option CharSet :=
  match name with
  | "alnum" => some (ofRanges [('0', '9'), ('A', 'Z'), ('a', 'z')])
  | "alpha" => some (ofRanges [('A', 'Z'), ('a', 'z')])
  | "ascii" => some (ofRanges [('\x00', '\x7F')])
  | "blank" => some (union (single '\t') (single ' '))
  | "cntrl" => some (ofRanges [('\x00', '\x1F'), ('\x7F', '\x7F')])
  | "digit" => some (ofRanges [('0', '9')])
  | "graph" => some (ofRanges [('!', '~')])
  | "lower" => some (ofRanges [('a', 'z')])
  | "print" => some (ofRanges [(' ', '~')])
  | "punct" => some (ofRanges [('!', '/'), (':', '@'), ('[', '\x60'), ('\x7b', '~')])
  | "space" => some (ofRanges [('\t', '\r'), (' ', ' ')])
  | "upper" => some (ofRanges [('A', 'Z')])
  | "word" => some (ofRanges [('0', '9'), ('A', 'Z'), ('_', '_'), ('a', 'z')])
  | "xdigit" => some (ofRanges [('0', '9'), ('A', 'F'), ('a', 'f')])
  | _ => Option.none

end CharSet

end Packrat
