import Packrat.Proofs.Parser.Attempt

namespace Packrat.Parser

variable {V α β : Type}

/-- A part of a match without a bound on its work. It is `none` if it does not end within its
rounds. -/
abbrev Course (V α : Type) : Type := State V → Option (Answer α × State V)

namespace Course

def of (x : Attempt V α) : Course V α := fun st => some (x st)

def andElse (x : Course V α) (onFound : α → Course V β) (onMissed : Course V β) : Course V β :=
  fun st => match x st with
    | none => none
    | some (.found a, st) => onFound a st
    | some (.missed, st) => onMissed st
    | some (.broken e, st) => some (.broken e, st)

end Course

def State.keep (place i : Nat) : Answer (Step V) × State V → Answer (Step V) × State V
  | (.found step, st) => (.found step, st.remember place i (some step))
  | (.missed, st) => (.missed, st.remember place i none)
  | (.broken e, st) => (.broken e, st)

namespace Problem

variable [OfToken V]

def courseSlot (p : Problem V) (recur : Nat → Nat → Course V (Step V)) (slot : Slot) (place : Nat) :
    Course V (Step V) :=
  match slot with
  | .nonTerminal i => recur i place
  | .terminal kind => .of (p.matchSlot (fun _ _ => Attempt.missed) (.terminal kind) place)

def courseSequence (p : Problem V) (recur : Nat → Nat → Course V (Step V)) (rule : CompiledRule V) :
    Bool → List Slot → Nat → Course V (List V × Nat)
  | _, [], place => .of (Attempt.found ([], place))
  | soft, slot :: rest, place =>
    (p.courseSlot recur slot place).andElse
      (fun step => (p.courseSequence recur rule false rest step.next).andElse
        (fun x => .of (Attempt.found (step.value :: x.1, x.2))) (.of Attempt.missed))
      (.of (p.escalate rule soft slot place))

def courseChoice (p : Problem V) (recur : Nat → Nat → Course V (Step V)) (place : Nat)
    (base : Option (Step V)) : List (CompiledRule V) → Course V (Step V)
  | [] => .of Attempt.missed
  | rule :: rest =>
    (p.courseSequence recur rule base.isSome (slotsBehind base rule)
        (startBehind base place)).andElse
      (fun x => .of (p.reduce rule place x.2 ((base.map (·.value)).toList ++ x.1)))
      (p.courseChoice recur place base rest)

def courseGrow (p : Problem V) (recur : Nat → Nat → Course V (Step V)) (place : Nat)
    (rules : List (CompiledRule V)) : Nat → Step V → Course V (Step V)
  | 0, _ => fun _ => none
  | rounds + 1, base =>
    (p.courseChoice recur place (some base) rules).andElse (p.courseGrow recur place rules rounds)
      (.of (Attempt.found base))

def courseExpand (p : Problem V) (recur : Nat → Nat → Course V (Step V)) (rounds i place : Nat) :
    Course V (Step V) :=
  (p.courseChoice recur place none (p.grammar.rulesOf i false)).andElse
    (p.courseGrow recur place (p.grammar.rulesOf i true) rounds) (.of Attempt.missed)

/-- Matches a non-terminal at a place or recalls its answer, with so many extensions of each match
and so many expansions under way at once. -/
def course (p : Problem V) (rounds : Nat) : Nat → Nat → Nat → Course V (Step V)
  | 0, _, _ => fun _ => none
  | depth + 1, i, place => fun st =>
    match st.memo[(place, i)]? with
    | some answer => some (.ofOption answer, st)
    | none =>
      (p.courseExpand (p.course rounds depth) rounds i place (st.enter place i)).map
        (State.keep place i)

variable {p : Problem V} {i place : Nat} {st : State V}

theorem matchNonTerminal_of_kept {answer : Option (Step V)}
    (h : st.memo[(place, i)]? = some answer) (depth : Nat) :
    p.matchNonTerminal (depth + 1) i place st = (.ofOption answer, st) := by
  rw [matchNonTerminal_succ, h]

theorem matchNonTerminal_of_fresh (h : st.memo[(place, i)]? = none) {spec : NonTerminal}
    (hspec : p.grammar.nonTerminals[i]? = some spec) (depth : Nat) :
    p.matchNonTerminal (depth + 1) i place st =
      State.keep place i (p.expand (p.matchNonTerminal depth) spec place (st.enter place i)) := by
  rw [matchNonTerminal_succ, h]
  dsimp only
  rw [hspec]
  rfl

theorem course_of_kept {answer : Option (Step V)} (h : st.memo[(place, i)]? = some answer)
    (rounds depth : Nat) :
    p.course rounds (depth + 1) i place st = some (.ofOption answer, st) := by
  simp only [course, h]

theorem course_of_fresh (h : st.memo[(place, i)]? = none) (rounds depth : Nat) :
    p.course rounds (depth + 1) i place st =
      (p.courseExpand (p.course rounds depth) rounds i place (st.enter place i)).map
        (State.keep place i) := by
  simp only [course, h]

end Problem

end Packrat.Parser
