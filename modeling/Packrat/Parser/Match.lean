import Packrat.Grammar.Compiled
import Packrat.Value
import Std.Data.HashMap

/-!
Matching a compiled grammar against a list of tokens.

The answer for a non-terminal at a place is kept, so that it is worked out once. A non-terminal
that is being matched counts as missed at its own place; left recursion is a first match of an
ordinary rule that left-recursive rules extend as long as one of them can.
-/

namespace Packrat.Parser

inductive Answer (α : Type) : Type
  | found : α → Answer α
  /-- Another rule may still match. -/
  | missed : Answer α
  /-- The whole parse ends here. -/
  | broken : Error → Answer α

structure Step (V : Type) : Type where
  value : V
  next : Nat

inductive Event : Type
  | entered (nonTerminal place : Nat) : Event
  | tried (place : Nat) : Event
  | reduced (nonTerminal start stop : Nat) : Event
  deriving DecidableEq

structure State (V : Type) : Type where
  memo : Std.HashMap (Nat × Nat) (Option (Step V)) := {}
  /-- The last place at which a terminal did not match. -/
  furthest : Nat := 0
  /-- Last event first. -/
  events : List Event := []

variable {V : Type}

namespace State

def record (st : State V) (e : Event) : State V := { st with events := e :: st.events }

def miss (st : State V) (place : Nat) : State V := { st with furthest := max st.furthest place }

def remember (st : State V) (place nonTerminal : Nat) (answer : Option (Step V)) : State V :=
  { st with memo := st.memo.insert (place, nonTerminal) answer }

end State

structure Problem (V : Type) : Type where
  grammar : CompiledGrammar V
  tokens : Array Token

abbrev Recursion (V : Type) : Type := Nat → Nat → State V → Answer (Step V) × State V

namespace Problem

def tokenAt (p : Problem V) (place : Nat) : Option Token := p.tokens[min place (p.tokens.size - 1)]?

def marker (p : Problem V) (start stop : Nat) : Marker :=
  match p.tokenAt start, p.tokenAt (stop - 1) with
  | some first, some last =>
    if start < stop then first.marker.through last.marker else first.marker
  | _, _ => .span Marker.unnamed 0 0 1

def context (p : Problem V) (nonTerminal start stop : Nat) : Context :=
  { nonTerminal := p.grammar.name nonTerminal
    marker := p.marker start stop
    tokens := (p.tokens.extract start stop).toList }

def reduce (p : Problem V) (rule : CompiledRule V) (start stop : Nat) (values : List V)
    (st : State V) : Answer (Step V) × State V :=
  match rule.reducer with
  | some f =>
    let st := st.record (.reduced rule.lhs start stop)
    match f (p.context rule.lhs start stop) values with
    | .ok v => (.found ⟨v, stop⟩, st)
    | .error e => (.broken e, st)
  | none =>
    match values.getLast? with
    | some v => (.found ⟨v, stop⟩, st)
    | none => (.broken ((p.context rule.lhs start stop).error "nothing to reduce"), st)

/-- The error of a hard rule whose symbol does not match. If matching got further than `place`
before, the help says where it stopped. -/
def required (p : Problem V) (rule : CompiledRule V) (slot : Slot) (place furthest : Nat) : Error :=
  let describe (spot : Nat) : String := match p.tokenAt spot with
    | some t => t.descriptor
    | none => ""
  { cause := .requiredMatch ("#" ++ p.grammar.name rule.lhs) (p.grammar.slotName slot)
      (describe place)
    marker := (p.tokenAt place).map (·.marker)
    help :=
      if furthest ≤ place then none
      else (p.tokenAt furthest).map fun t =>
        s!"matching stopped at {t.descriptor} on line {t.line}" }

variable [OfToken V]

def matchSlot (p : Problem V) (recur : Recursion V) (slot : Slot) (place : Nat) (st : State V) :
    Answer (Step V) × State V :=
  match slot with
  | .nonTerminal i => recur i place st
  | .terminal kind =>
    let st := st.record (.tried place)
    match p.tokens[place]? with
    | some t =>
      if t.kind = kind then (.found ⟨ofToken t, place + 1⟩, st) else (.missed, st.miss place)
    | none => (.missed, st.miss place)

/-- Matches symbols one behind the other. The values so far stand in reverse. A miss of the first
symbol is no error of a hard rule when `soft`. -/
def matchSlots (p : Problem V) (recur : Recursion V) (rule : CompiledRule V) (soft : Bool) :
    List Slot → List V → Nat → State V → Answer (List V × Nat) × State V
  | [], values, place, st => (.found (values.reverse, place), st)
  | slot :: rest, values, place, st =>
    match p.matchSlot recur slot place st with
    | (.found step, st) => p.matchSlots recur rule false rest (step.value :: values) step.next st
    | (.missed, st) =>
      if rule.failHard && !soft then (.broken (p.required rule slot place st.furthest), st)
      else (.missed, st)
    | (.broken e, st) => (.broken e, st)

def matchFirst (p : Problem V) (recur : Recursion V) (place : Nat) :
    List Nat → State V → Answer (Step V) × State V
  | [], st => (.missed, st)
  | i :: rest, st =>
    match p.grammar.rules[i]? with
    | none => p.matchFirst recur place rest st
    | some rule =>
      match p.matchSlots recur rule false rule.rhs [] place st with
      | (.found (values, next), st) => p.reduce rule place next values st
      | (.missed, st) => p.matchFirst recur place rest st
      | (.broken e, st) => (.broken e, st)

def extendOnce (p : Problem V) (recur : Recursion V) (place : Nat) (base : Step V) :
    List Nat → State V → Answer (Step V) × State V
  | [], st => (.missed, st)
  | i :: rest, st =>
    match p.grammar.rules[i]? with
    | none => p.extendOnce recur place base rest st
    | some rule =>
      match p.matchSlots recur rule true rule.rhs.tail [] base.next st with
      | (.found (values, next), st) => p.reduce rule place next (base.value :: values) st
      | (.missed, st) => p.extendOnce recur place base rest st
      | (.broken e, st) => (.broken e, st)

/-- Extends a match as often as it goes, each time from the first rule on. -/
def extend (p : Problem V) (recur : Recursion V) (place : Nat) (rules : List Nat) :
    Nat → Step V → State V → Answer (Step V) × State V
  | 0, base, st => (.found base, st)
  | fuel + 1, base, st =>
    match p.extendOnce recur place base rules st with
    | (.found step, st) => p.extend recur place rules fuel step st
    | (.missed, st) => (.found base, st)
    | (.broken e, st) => (.broken e, st)

def expand (p : Problem V) (recur : Recursion V) (spec : NonTerminal) (place : Nat)
    (st : State V) : Answer (Step V) × State V :=
  match p.matchFirst recur place spec.ordinary st with
  | (.found base, st) =>
    -- Every extension takes a token, so these rounds are enough.
    p.extend recur place spec.leftRecursive (p.tokens.size + 1 - base.next) base st
  | other => other

/-- Matches a non-terminal at a place, or recalls its answer. Places and non-terminals under way
are all different, which bounds the depth. -/
def matchNonTerminal (p : Problem V) : Nat → Recursion V
  | 0, _, _, st => (.missed, st)
  | depth + 1, i, place, st =>
    match st.memo[(place, i)]? with
    | some (some step) => (.found step, st)
    | some none => (.missed, st)
    | none =>
      match p.grammar.nonTerminals[i]? with
      | none => (.missed, st)
      | some spec =>
        -- Missed until its expansion has an answer, which stops left recursion through others.
        let st := (st.record (.entered i place)).remember place i none
        match p.expand (p.matchNonTerminal depth) spec place st with
        | (.found step, st) => (.found step, st.remember place i (some step))
        | (.missed, st) => (.missed, st.remember place i none)
        | (.broken e, st) => (.broken e, st)

/-- More than the places and non-terminals that can be under way at once. -/
def depth (p : Problem V) : Nat := (p.tokens.size + 1) * p.grammar.nonTerminals.size + 1

def run (p : Problem V) : Answer (Step V) × State V :=
  p.matchNonTerminal p.depth p.grammar.start 0 {}

end Problem

end Packrat.Parser
