import Packrat.Parser.Match
import Packrat.Proofs.Grammar.Compiled

/-! The matcher as attempts put together by one combinator. Each function of the matcher equals a
combination of attempts, so that a property of matching has to be shown for the combinator, for
terminals and for reductions only. -/

namespace Packrat.Parser

variable {V α β γ : Type}

def Answer.ofOption : Option α → Answer α
  | some a => .found a
  | none => .missed

namespace State

/-- The state in which the expansion of a non-terminal begins: it counts as missed at its place. -/
def enter (st : State V) (place i : Nat) : State V :=
  (st.record (.entered i place)).remember place i none

theorem getElem?_memo_remember (st : State V) (place i : Nat) (answer : Option (Step V))
    (q j : Nat) :
    (st.remember place i answer).memo[(q, j)]? =
      if q = place ∧ j = i then some answer else st.memo[(q, j)]? := by
  unfold remember
  rw [Std.HashMap.getElem?_insert]
  grind

theorem getElem?_memo_enter (st : State V) (place i q j : Nat) :
    (st.enter place i).memo[(q, j)]? =
      if q = place ∧ j = i then some none else st.memo[(q, j)]? :=
  getElem?_memo_remember _ place i none q j

theorem kept_remember {st : State V} {place i q j : Nat} {answer : Option (Step V)} {step : Step V}
    (h : (st.remember place i answer).memo[(q, j)]? = some (some step)) :
    (q = place ∧ j = i ∧ answer = some step) ∨ st.memo[(q, j)]? = some (some step) := by
  rw [getElem?_memo_remember] at h
  split at h
  · next heq => exact .inl ⟨heq.1, heq.2, Option.some.inj h⟩
  · exact .inr h

end State

abbrev Attempt (V α : Type) : Type := State V → Answer α × State V

namespace Attempt

def found (a : α) : Attempt V α := fun st => (.found a, st)

def missed : Attempt V α := fun st => (.missed, st)

def andElse (x : Attempt V α) (onFound : α → Attempt V β) (onMissed : Attempt V β) : Attempt V β :=
  fun st => match x st with
    | (.found a, st) => onFound a st
    | (.missed, st) => onMissed st
    | (.broken e, st) => (.broken e, st)

section

variable {x : Attempt V α} {f : α → Attempt V β} {m : Attempt V β} {st st' : State V}

theorem andElse_of_found {a : α} (h : x st = (.found a, st')) : x.andElse f m st = f a st' := by
  rw [andElse, h]

theorem andElse_of_missed (h : x st = (.missed, st')) : x.andElse f m st = m st' := by
  rw [andElse, h]

theorem andElse_of_broken {e : Error} (h : x st = (.broken e, st')) :
    x.andElse f m st = (.broken e, st') := by
  rw [andElse, h]

theorem andElse_andElse (x : Attempt V α) (f : α → Attempt V β) (m : Attempt V β)
    (g : β → Attempt V γ) (n : Attempt V γ) :
    (x.andElse f m).andElse g n =
      x.andElse (fun a => (f a).andElse g n) (m.andElse g n) := by
  funext st
  rcases h : x st with ⟨a | _ | e, st'⟩
  · rw [andElse_of_found h, andElse, andElse_of_found h, andElse]
  · rw [andElse_of_missed h, andElse, andElse_of_missed h, andElse]
  · rw [andElse_of_broken h, andElse_of_broken (andElse_of_broken h)]

theorem andElse_found_missed (x : Attempt V α) : x.andElse found missed = x := by
  funext st
  rcases h : x st with ⟨a | _ | e, st'⟩
  · rw [andElse_of_found h]; rfl
  · rw [andElse_of_missed h]; rfl
  · rw [andElse_of_broken h]

end

end Attempt

namespace Problem

open Attempt

def escalate (p : Problem V) (rule : CompiledRule V) (soft : Bool) (slot : Slot) (place : Nat) :
    Attempt V α := fun st =>
  if rule.failHard && !soft then (.broken (p.required rule slot place st.furthest), st)
  else (.missed, st)

def slotsBehind (base : Option (Step V)) (rule : CompiledRule V) : List Slot :=
  if base.isSome then rule.rhs.tail else rule.rhs

def startBehind (base : Option (Step V)) (place : Nat) : Nat := (base.map (·.next)).getD place

variable [OfToken V]

def sequence (p : Problem V) (recur : Recursion V) (rule : CompiledRule V) :
    Bool → List Slot → Nat → Attempt V (List V × Nat)
  | _, [], place => found ([], place)
  | soft, slot :: rest, place =>
    andElse (p.matchSlot recur slot place)
      (fun step => (p.sequence recur rule false rest step.next).andElse
        (fun x => found (step.value :: x.1, x.2)) missed)
      (p.escalate rule soft slot place)

def choice (p : Problem V) (recur : Recursion V) (place : Nat) (base : Option (Step V)) :
    List (CompiledRule V) → Attempt V (Step V)
  | [] => missed
  | rule :: rest =>
    (p.sequence recur rule base.isSome (slotsBehind base rule) (startBehind base place)).andElse
      (fun x => p.reduce rule place x.2 ((base.map (·.value)).toList ++ x.1))
      (p.choice recur place base rest)

def grow (p : Problem V) (recur : Recursion V) (place : Nat) (rules : List (CompiledRule V)) :
    Nat → Step V → Attempt V (Step V)
  | 0, base => found base
  | fuel + 1, base =>
    (p.choice recur place (some base) rules).andElse (p.grow recur place rules fuel) (found base)

variable {p : Problem V} {recur : Recursion V}

theorem matchSlot_terminal (recur : Recursion V) (kind : Kind) (place : Nat) (st : State V) :
    (p.matchSlot recur (.terminal kind) place st).2.memo = st.memo ∧
      (p.matchSlot recur (.terminal kind) place st).2.events = .tried place :: st.events ∧
      ∀ step, (p.matchSlot recur (.terminal kind) place st).1 = .found step →
        place < p.tokens.size ∧ step.next = place + 1 := by
  unfold matchSlot
  cases ht : p.tokens[place]? with
  | none => exact ⟨rfl, rfl, nofun⟩
  | some t =>
    dsimp only
    split
    · refine ⟨rfl, rfl, ?_⟩
      rintro _ ⟨⟩
      exact ⟨(Array.getElem?_eq_some_iff.1 ht).1, rfl⟩
    · exact ⟨rfl, rfl, nofun⟩

theorem matchSlot_terminal_ne_broken (recur : Recursion V) (kind : Kind) (place : Nat)
    (st : State V) (e : Error) : (p.matchSlot recur (.terminal kind) place st).1 ≠ .broken e := by
  unfold matchSlot
  dsimp only
  split
  · split <;> nofun
  · nofun

theorem matchSlots_eq (rule : CompiledRule V) (soft : Bool) (slots : List Slot) (values : List V)
    (place : Nat) :
    p.matchSlots recur rule soft slots values place =
      (p.sequence recur rule soft slots place).andElse
        (fun x => found (values.reverse ++ x.1, x.2)) missed := by
  induction slots generalizing soft values place with
  | nil => funext st; simp [matchSlots, sequence, andElse, found]
  | cons slot rest ih =>
    funext st
    rw [matchSlots, sequence, andElse_andElse]
    rcases h : p.matchSlot recur slot place st with ⟨step | _ | e, st'⟩
    · rw [andElse_of_found h, andElse_andElse]
      simp only [ih, List.reverse_cons, List.append_assoc, List.singleton_append]
      rfl
    · rw [andElse_of_missed h, andElse, escalate]
      dsimp only
      split <;> rfl
    · rw [andElse_of_broken h]

theorem matchSlots_nil_eq (rule : CompiledRule V) (soft : Bool) (slots : List Slot) (place : Nat) :
    p.matchSlots recur rule soft slots [] place = p.sequence recur rule soft slots place := by
  rw [matchSlots_eq]
  exact andElse_found_missed _

theorem matchFirst_eq (place : Nat) (numbers : List Nat) :
    p.matchFirst recur place numbers =
      p.choice recur place none (numbers.filterMap (p.grammar.rules[·]?)) := by
  induction numbers with
  | nil => rfl
  | cons i rest ih =>
    funext st
    rw [matchFirst]
    cases hi : p.grammar.rules[i]? with
    | none => rw [List.filterMap_cons_none hi, ih]
    | some rule =>
      rw [List.filterMap_cons_some hi, choice, ← ih]
      dsimp only
      rw [matchSlots_nil_eq]
      change _ = (p.sequence recur rule false rule.rhs place).andElse _ _ st
      rcases h : p.sequence recur rule false rule.rhs place st with ⟨⟨values, next⟩ | _ | e, st'⟩
      · rw [andElse_of_found h]; rfl
      · rw [andElse_of_missed h]
      · rw [andElse_of_broken h]

theorem extendOnce_eq (place : Nat) (base : Step V) (numbers : List Nat) :
    p.extendOnce recur place base numbers =
      p.choice recur place (some base) (numbers.filterMap (p.grammar.rules[·]?)) := by
  induction numbers with
  | nil => rfl
  | cons i rest ih =>
    funext st
    rw [extendOnce]
    cases hi : p.grammar.rules[i]? with
    | none => rw [List.filterMap_cons_none hi, ih]
    | some rule =>
      rw [List.filterMap_cons_some hi, choice, ← ih]
      dsimp only
      rw [matchSlots_nil_eq]
      change _ = (p.sequence recur rule true rule.rhs.tail base.next).andElse _ _ st
      rcases h : p.sequence recur rule true rule.rhs.tail base.next st with
        ⟨⟨values, next⟩ | _ | e, st'⟩
      · rw [andElse_of_found h]; rfl
      · rw [andElse_of_missed h]
      · rw [andElse_of_broken h]

theorem extend_eq (place : Nat) (numbers : List Nat) (fuel : Nat) (base : Step V) :
    p.extend recur place numbers fuel base =
      p.grow recur place (numbers.filterMap (p.grammar.rules[·]?)) fuel base := by
  induction fuel generalizing base with
  | zero => rfl
  | succ fuel ih =>
    funext st
    rw [extend, grow, extendOnce_eq, ← funext ih]
    rcases h : p.choice recur place (some base) (numbers.filterMap (p.grammar.rules[·]?)) st with
      ⟨step | _ | e, st'⟩
    · rw [andElse_of_found h]
    · rw [andElse_of_missed h]; rfl
    · rw [andElse_of_broken h]

theorem expand_eq_numbers (spec : NonTerminal) (place : Nat) :
    p.expand recur spec place =
      (p.choice recur place none (spec.ordinary.filterMap (p.grammar.rules[·]?))).andElse
        (fun base => p.grow recur place (spec.leftRecursive.filterMap (p.grammar.rules[·]?))
          (p.tokens.size + 1 - base.next) base)
        missed := by
  funext st
  rw [expand, matchFirst_eq]
  rcases h : p.choice recur place none (spec.ordinary.filterMap (p.grammar.rules[·]?)) st with
    ⟨base | _ | e, st'⟩
  · rw [andElse_of_found h, ← extend_eq]
  · rw [andElse_of_missed h]; rfl
  · rw [andElse_of_broken h]

theorem expand_eq {g : Grammar V} (hg : g.CompilesTo p.grammar) {i : Nat} {spec : NonTerminal}
    (hi : p.grammar.nonTerminals[i]? = some spec) (place : Nat) :
    p.expand recur spec place =
      (p.choice recur place none (p.grammar.rulesOf i false)).andElse
        (fun base => p.grow recur place (p.grammar.rulesOf i true) (p.tokens.size + 1 - base.next) base)
        missed := by
  rw [expand_eq_numbers, hg.ordinary hi, hg.leftRecursive hi]

theorem matchNonTerminal_succ (depth i place : Nat) (st : State V) :
    p.matchNonTerminal (depth + 1) i place st =
      match st.memo[(place, i)]? with
      | some answer => (.ofOption answer, st)
      | none =>
        match p.grammar.nonTerminals[i]? with
        | none => (.missed, st)
        | some spec =>
          match p.expand (p.matchNonTerminal depth) spec place (st.enter place i) with
          | (.found step, st) => (.found step, st.remember place i (some step))
          | (.missed, st) => (.missed, st.remember place i none)
          | (.broken e, st) => (.broken e, st) := by
  rw [matchNonTerminal]
  rcases st.memo[(place, i)]? with _ | _ | _ <;> rfl

end Problem

end Packrat.Parser
