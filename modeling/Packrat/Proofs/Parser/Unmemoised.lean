import Packrat.Proofs.Parser.Attempt

/-! A matcher without memory. It works out every answer anew; all that it carries along is the last
place at which a terminal did not match, since the help of an error tells it. -/

namespace Packrat.Parser

variable {V α β : Type}

/-- A part of a match without memory: from the last missed place so far on, what it comes to and
the last missed place then. It is `none` if it does not end within its rounds. -/
abbrev Trial (α : Type) : Type := Nat → Option (Answer α × Nat)

namespace Trial

def found (a : α) : Trial α := fun furthest => some (.found a, furthest)

def missed : Trial α := fun furthest => some (.missed, furthest)

def missedAt (place : Nat) : Trial α := fun furthest => some (.missed, max furthest place)

def broken (e : Nat → Error) : Trial α := fun furthest => some (.broken (e furthest), furthest)

def andElse (x : Trial α) (onFound : α → Trial β) (onMissed : Trial β) : Trial β :=
  fun furthest => match x furthest with
    | none => none
    | some (.found a, furthest) => onFound a furthest
    | some (.missed, furthest) => onMissed furthest
    | some (.broken e, furthest) => some (.broken e, furthest)

end Trial

namespace Problem

variable [OfToken V]

def trySlot (p : Problem V) (recur : Nat → Nat → Trial (Step V)) (slot : Slot) (place : Nat) :
    Trial (Step V) :=
  match slot with
  | .nonTerminal i => recur i place
  | .terminal kind =>
    match p.tokens[place]? with
    | some t => if t.kind = kind then .found ⟨ofToken t, place + 1⟩ else .missedAt place
    | none => .missedAt place

/-- Slots one behind the other. The miss of one is an error of a hard rule, unless it is the first
one behind a base. -/
def trySequence (p : Problem V) (recur : Nat → Nat → Trial (Step V)) (rule : CompiledRule V) :
    Bool → List Slot → Nat → Trial (List V × Nat)
  | _, [], place => .found ([], place)
  | soft, slot :: rest, place =>
    (p.trySlot recur slot place).andElse
      (fun step => (p.trySequence recur rule false rest step.next).andElse
        (fun x => .found (step.value :: x.1, x.2)) .missed)
      (if rule.failHard && !soft then .broken (p.required rule slot place) else .missed)

def tryReduce (p : Problem V) (rule : CompiledRule V) (start stop : Nat) (values : List V) :
    Trial (Step V) :=
  let context := p.context rule.lhs start stop
  match rule.reducer, values.getLast? with
  | some f, _ =>
    match f context values with
    | .ok v => .found ⟨v, stop⟩
    | .error e => .broken fun _ => e
  | none, some v => .found ⟨v, stop⟩
  | none, none => .broken fun _ => context.error "nothing to reduce"

def tryChoice (p : Problem V) (recur : Nat → Nat → Trial (Step V)) (place : Nat)
    (base : Option (Step V)) : List (CompiledRule V) → Trial (Step V)
  | [] => .missed
  | rule :: rest =>
    (p.trySequence recur rule base.isSome (slotsBehind base rule) (startBehind base place)).andElse
      (fun x => p.tryReduce rule place x.2 ((base.map (·.value)).toList ++ x.1))
      (p.tryChoice recur place base rest)

def tryGrow (p : Problem V) (recur : Nat → Nat → Trial (Step V)) (place : Nat)
    (rules : List (CompiledRule V)) : Nat → Step V → Trial (Step V)
  | 0, _ => fun _ => none
  | rounds + 1, base =>
    (p.tryChoice recur place (some base) rules).andElse (p.tryGrow recur place rules rounds)
      (.found base)

def unmemoised (p : Problem V) : Nat → Nat → Nat → Trial (Step V)
  | 0, _, _ => fun _ => none
  | rounds + 1, i, place =>
    (p.tryChoice (p.unmemoised rounds) place none (p.grammar.rulesOf i false)).andElse
      (p.tryGrow (p.unmemoised rounds) place (p.grammar.rulesOf i true) rounds)
      .missed

end Problem

namespace Trial

/-- What the trial comes to does not hang on the places missed before it, and it adds the same
missed places to any others. -/
def Uniform (x : Trial α) : Prop :=
  ∀ furthest a furthest', x furthest = some (a, furthest') → (∀ e, a ≠ .broken e) →
    ∃ reach ≤ furthest', ∀ other, x other = some (a, max other reach)

namespace Uniform

theorem found (a : α) : Uniform (Trial.found a) := by
  intro furthest b furthest' h _
  cases h
  exact ⟨0, Nat.zero_le _, fun other => by simp [Trial.found]⟩

theorem missed : Uniform (Trial.missed : Trial α) := by
  intro furthest b furthest' h _
  cases h
  exact ⟨0, Nat.zero_le _, fun other => by simp [Trial.missed]⟩

theorem broken (e : Nat → Error) : Uniform (Trial.broken e : Trial α) := by
  intro furthest b furthest' h hb
  cases h
  exact absurd rfl (hb _)

theorem none : Uniform (fun _ => none : Trial α) := by
  intro furthest b furthest' h _
  cases h

theorem missedAt (place : Nat) : Uniform (Trial.missedAt place : Trial α) := by
  intro furthest b furthest' h _
  cases h
  exact ⟨place, Nat.le_max_right _ _, fun _ => rfl⟩

theorem andElse {x : Trial α} {f : α → Trial β} {m : Trial β} (hx : Uniform x)
    (hf : ∀ a, Uniform (f a)) (hm : Uniform m) : Uniform (x.andElse f m) := by
  intro furthest b furthest' h hb
  -- Both ways to go on add their own missed places to those of `x`.
  have goOn {a : Answer α} {middle : Nat} {y : Trial β} (hxa : x furthest = some (a, middle))
      (ha : ∀ e, a ≠ .broken e) (hy : Uniform y) (hyb : y middle = some (b, furthest'))
      (hxy : ∀ other reach, x other = some (a, reach) → x.andElse f m other = y reach) :
      ∃ reach ≤ furthest', ∀ other, x.andElse f m other = some (b, max other reach) := by
    obtain ⟨r, -, hr⟩ := hx _ _ _ hxa ha
    obtain ⟨s, -, hs⟩ := hy _ _ _ hyb hb
    have hmiddle : middle = max furthest r := by simpa [hxa] using hr furthest
    have hend : furthest' = max middle s := by simpa [hyb] using hs middle
    refine ⟨max r s, by omega, fun other => ?_⟩
    rw [hxy other _ (hr other), hs, Nat.max_assoc]
  unfold Trial.andElse at h
  rcases hxa : x furthest with _ | ⟨a | _ | e, middle⟩
  · simp [hxa] at h
  · simp only [hxa] at h
    exact goOn hxa (by simp) (hf a) h fun other reach ho => by simp [Trial.andElse, ho]
  · simp only [hxa] at h
    exact goOn hxa (by simp) hm h fun other reach ho => by simp [Trial.andElse, ho]
  · simp only [hxa, Option.some.injEq, Prod.mk.injEq] at h
    exact absurd h.1.symm (hb e)

end Uniform

end Trial

namespace Problem

open Trial

variable [OfToken V] {p : Problem V} {recur : Nat → Nat → Trial (Step V)}

theorem uniform_trySlot (hrecur : ∀ i place, Uniform (recur i place)) (slot : Slot) (place : Nat) :
    Uniform (p.trySlot recur slot place) := by
  cases slot with
  | nonTerminal i => exact hrecur i place
  | terminal kind =>
    unfold trySlot
    dsimp only
    split
    · split
      · exact .found _
      · exact .missedAt place
    · exact .missedAt place

theorem uniform_trySequence (hrecur : ∀ i place, Uniform (recur i place)) (rule : CompiledRule V)
    (soft : Bool) (slots : List Slot) (place : Nat) :
    Uniform (p.trySequence recur rule soft slots place) := by
  induction slots generalizing soft place with
  | nil => exact .found _
  | cons slot rest ih =>
    refine (uniform_trySlot hrecur slot place).andElse (fun step => ?_) ?_
    · exact (ih false step.next).andElse (fun x => .found _) .missed
    · split
      · exact .broken _
      · exact .missed

omit [OfToken V] in
theorem uniform_tryReduce (rule : CompiledRule V) (start stop : Nat) (values : List V) :
    Uniform (p.tryReduce rule start stop values) := by
  unfold tryReduce
  dsimp only
  split
  · split
    · exact .found _
    · exact .broken _
  · exact .found _
  · exact .broken _

theorem uniform_tryChoice (hrecur : ∀ i place, Uniform (recur i place)) (place : Nat)
    (base : Option (Step V)) (rules : List (CompiledRule V)) :
    Uniform (p.tryChoice recur place base rules) := by
  induction rules with
  | nil => exact .missed
  | cons rule rest ih =>
    exact (uniform_trySequence hrecur rule _ _ _).andElse (fun x => uniform_tryReduce rule _ _ _) ih

theorem uniform_tryGrow (hrecur : ∀ i place, Uniform (recur i place)) (place : Nat)
    (rules : List (CompiledRule V)) (rounds : Nat) (base : Step V) :
    Uniform (p.tryGrow recur place rules rounds base) := by
  induction rounds generalizing base with
  | zero => exact .none
  | succ rounds ih => exact (uniform_tryChoice hrecur place _ rules).andElse ih (.found base)

theorem uniform_unmemoised (rounds i place : Nat) : Uniform (p.unmemoised rounds i place) := by
  induction rounds generalizing i place with
  | zero => exact .none
  | succ rounds ih =>
    exact (uniform_tryChoice ih place none _).andElse (uniform_tryGrow ih place _ rounds) .missed

end Problem

end Packrat.Parser
