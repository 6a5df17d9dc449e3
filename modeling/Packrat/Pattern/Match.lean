import Packrat.Pattern.Syntax

/-!
Matching a pattern at a place in a text.

Matching tries alternatives in their order and passes each way to go on to a continuation; the
first way on which the continuation succeeds is taken.
-/

namespace Packrat.Pattern

open Text (Cursor)

structure Progress : Type where
  cursor : Cursor
  groups : List Nat

namespace Progress

def passed (s : Progress) (n : Nat) : Bool := s.groups.contains n

def samePlace (s t : Progress) : Bool := s.cursor.offset == t.cursor.offset

end Progress

abbrev Continuation : Type := Progress → Option Progress

abbrev Matcher : Type := Progress → Continuation → Option Progress

namespace Matcher

@[inline] def prefer (greedy : Bool) (more done : Unit → Option Progress) : Option Progress :=
  if greedy then
    match more () with
    | some r => some r
    | none => done ()
  else
    match done () with
    | some r => some r
    | none => more ()

def exactly (m : Matcher) : Nat → Matcher
  | 0, s, k => k s
  | n + 1, s, k => m s fun t => exactly m n t k

def atMost (m : Matcher) (greedy : Bool) : Nat → Matcher
  | 0, s, k => k s
  | n + 1, s, k => prefer greedy (fun _ => m s fun t => atMost m greedy n t k) (fun _ => k s)

/-- Further rounds, each of which has to take a character. -/
def again (m : Matcher) (greedy : Bool) : Nat → Matcher
  | 0, s, k => k s
  | fuel + 1, s, k =>
    prefer greedy
      (fun _ => m s fun t => if t.samePlace s then none else again m greedy fuel t k)
      (fun _ => k s)

/-- One round or more; a first round that takes no character is the only one. -/
def oneOrMore (m : Matcher) (greedy : Bool) (fuel : Nat) : Matcher := fun s k =>
  m s fun t => if t.samePlace s then k t else again m greedy fuel t k

def rep (m : Matcher) (fuel least : Nat) (most : Option Nat) (greedy : Bool) : Matcher :=
  fun s k =>
    match most, least with
    | some most, least =>
      if most = 0 then k s else exactly m least s fun t => atMost m greedy (most - least) t k
    | none, 0 => prefer greedy (fun _ => oneOrMore m greedy fuel s k) (fun _ => k s)
    | none, least + 1 => exactly m least s fun t => oneOrMore m greedy fuel t k

end Matcher

def run (fuel : Nat) : Pattern → Matcher
  | empty, s, k => k s
  | set cs, s, k =>
    match s.cursor.next? with
    | some (c, p) => if cs.mem c then k { s with cursor := p } else none
    | none => none
  | look l, s, k => if l.holds s.cursor then k s else none
  | group n p, s, k => run fuel p s fun t => k { t with groups := n :: t.groups }
  | cat p q, s, k => run fuel p s fun t => run fuel q t k
  | alt p q, s, k =>
    match run fuel p s k with
    | some r => some r
    | none => run fuel q s k
  | rep least most greedy p, s, k => Matcher.rep (run fuel p) fuel least most greedy s k

def matchAt? (p : Pattern) (place : Cursor) : Option Progress :=
  p.run place.after.length ⟨place, []⟩ some

end Packrat.Pattern
