import Packrat.Proofs.Parser.Course
import Packrat.Proofs.Parser.Hard

/-! Which match the help of a hard rule's error is about. The matcher has one last missed place for
a whole parse. A search has one for each part of a match, so that it tells how far the symbol got
that a rule lacks. -/

namespace Packrat.Parser

variable {V α β : Type}

inductive Abort (V : Type) : Type
  | rejected (e : Error) : Abort V
  /-- A hard rule lacks a symbol at `place`. The last place missed in matching that symbol is
  `own`. -/
  | lacking (rule : CompiledRule V) (slot : Slot) (place own : Nat) : Abort V

/-- Kept answers, and for each the last place missed on the way to it. -/
abbrev Memory (V : Type) : Type := Nat × Nat → Option (Option (Step V) × Nat)

def Memory.keep (memory : Memory V) (place i : Nat) (answer : Option (Step V)) (reach : Nat) :
    Memory V :=
  Function.update memory (place, i) (some (answer, reach))

structure Finding (V α : Type) : Type where
  answer : Except (Abort V) (Option α)
  /-- The last place at which a terminal did not match, also on the way to answers recalled. -/
  reach : Nat
  memory : Memory V

def Finding.after (f : Finding V α) (reach : Nat) : Finding V α :=
  { f with reach := max reach f.reach }

abbrev Search (V α : Type) : Type := Memory V → Finding V α

namespace Search

def found (a : α) : Search V α := fun memory => ⟨.ok (some a), 0, memory⟩

def missed : Search V α := fun memory => ⟨.ok none, 0, memory⟩

def missedAt (place : Nat) : Search V α := fun memory => ⟨.ok none, place, memory⟩

def abort (a : Abort V) : Search V α := fun memory => ⟨.error a, 0, memory⟩

def andElse (x : Search V α) (onFound : α → Search V β) (onMissed : Nat → Search V β) :
    Search V β := fun memory =>
  match x memory with
  | ⟨.ok (some a), reach, memory⟩ => (onFound a memory).after reach
  | ⟨.ok none, reach, memory⟩ => (onMissed reach memory).after reach
  | ⟨.error a, reach, memory⟩ => (abort a memory).after reach

section

variable {x : Search V α} {f : α → Search V β} {m : Nat → Search V β} {memory memory' : Memory V}
  {reach : Nat}

theorem andElse_of_found {a : α} (h : x memory = ⟨.ok (some a), reach, memory'⟩) :
    x.andElse f m memory = (f a memory').after reach := by
  rw [andElse, h]

theorem andElse_of_missed (h : x memory = ⟨.ok none, reach, memory'⟩) :
    x.andElse f m memory = (m reach memory').after reach := by
  rw [andElse, h]

theorem andElse_of_abort {a : Abort V} (h : x memory = ⟨.error a, reach, memory'⟩) :
    x.andElse f m memory = (abort a memory').after reach := by
  rw [andElse, h]

end

end Search

namespace Finding

def lack? (f : Finding V α) : Option (Slot × Nat × Nat) :=
  match f.answer with
  | .error (.lacking _ slot place own) => some (slot, place, own)
  | _ => none

theorem exists_rule_of_lack? {f : Finding V α} {slot : Slot} {place own : Nat}
    (h : f.lack? = some (slot, place, own)) :
    ∃ rule, f.answer = .error (.lacking rule slot place own) := by
  unfold lack? at h
  split at h
  · next rule _ _ _ hanswer =>
    cases h
    exact ⟨rule, hanswer⟩
  · cases h

def keep (place i : Nat) (f : Finding V (Step V)) : Finding V (Step V) :=
  match f.answer with
  | .ok answer => { f with memory := f.memory.keep place i answer f.reach }
  | .error _ => f

end Finding

namespace Problem

variable [OfToken V]

def searchSlot (p : Problem V) (recur : Nat → Nat → Search V (Step V)) (slot : Slot)
    (place : Nat) : Search V (Step V) :=
  match slot with
  | .nonTerminal i => recur i place
  | .terminal kind =>
    match p.tokens[place]? with
    | some t => if t.kind = kind then .found ⟨ofToken t, place + 1⟩ else .missedAt place
    | none => .missedAt place

def searchSequence (p : Problem V) (recur : Nat → Nat → Search V (Step V))
    (rule : CompiledRule V) : Bool → List Slot → Nat → Search V (List V × Nat)
  | _, [], place => .found ([], place)
  | soft, slot :: rest, place =>
    (p.searchSlot recur slot place).andElse
      (fun step => (p.searchSequence recur rule false rest step.next).andElse
        (fun x => .found (step.value :: x.1, x.2)) fun _ => .missed)
      fun own =>
        if rule.failHard && !soft then .abort (.lacking rule slot place own) else .missed

def searchReduce (p : Problem V) (rule : CompiledRule V) (start stop : Nat) (values : List V) :
    Search V (Step V) :=
  match (p.reduce rule start stop values {}).1 with
  | .found step => .found step
  | .missed => .missed
  | .broken e => .abort (.rejected e)

def searchChoice (p : Problem V) (recur : Nat → Nat → Search V (Step V)) (place : Nat)
    (base : Option (Step V)) : List (CompiledRule V) → Search V (Step V)
  | [] => .missed
  | rule :: rest =>
    (p.searchSequence recur rule base.isSome (slotsBehind base rule)
        (startBehind base place)).andElse
      (fun x => p.searchReduce rule place x.2 ((base.map (·.value)).toList ++ x.1))
      fun _ => p.searchChoice recur place base rest

def searchGrow (p : Problem V) (recur : Nat → Nat → Search V (Step V)) (place : Nat)
    (rules : List (CompiledRule V)) : Nat → Step V → Search V (Step V)
  | 0, base => .found base
  | fuel + 1, base =>
    (p.searchChoice recur place (some base) rules).andElse (p.searchGrow recur place rules fuel)
      fun _ => .found base

def searchExpand (p : Problem V) (recur : Nat → Nat → Search V (Step V)) (i place : Nat) :
    Search V (Step V) :=
  (p.searchChoice recur place none (p.grammar.rulesOf i false)).andElse
    (fun base =>
      p.searchGrow recur place (p.grammar.rulesOf i true) (p.tokens.size + 1 - base.next) base)
    fun _ => .missed

def searchNonTerminal (p : Problem V) : Nat → Nat → Nat → Search V (Step V)
  | 0, _, _ => .missed
  | depth + 1, i, place => fun memory =>
    match memory (place, i) with
    | some (answer, reach) => ⟨.ok answer, reach, memory⟩
    | none =>
      if i < p.grammar.nonTerminals.size then
        (p.searchExpand (p.searchNonTerminal depth) i place (memory.keep place i none 0)).keep
          place i
      else Search.missed memory

def search (p : Problem V) : Finding V (Step V) :=
  p.searchNonTerminal p.depth p.grammar.start 0 fun _ => none

/-! ## A search comes to what the matcher comes to -/

structure Remembers (st : State V) (memory : Memory V) : Prop where
  memo_eq (place i : Nat) : st.memo[(place, i)]? = (memory (place, i)).map (·.1)
  le_furthest (place i : Nat) (answer : Option (Step V)) (reach : Nat) :
    memory (place, i) = some (answer, reach) → reach ≤ st.furthest

inductive Tells (p : Problem V) (furthest : Nat) : Abort V → Error → Prop
  | rejected {e : Error} (h : p.Rejects e) : Tells p furthest (.rejected e) e
  | lacking {rule : CompiledRule V} {slot : Slot} {place own : Nat} (hhard : rule.failHard = true)
      (hslot : slot ∈ rule.rhs) (hterminal : ∀ kind, slot = .terminal kind → own = place)
      (hown : own ≤ furthest) :
      Tells p furthest (.lacking rule slot place own) (p.required rule slot place furthest)

inductive Means (p : Problem V) (furthest : Nat) : Except (Abort V) (Option α) → Answer α → Prop
  | found (a : α) : Means p furthest (.ok (some a)) (.found a)
  | missed : Means p furthest (.ok none) .missed
  | broken {a : Abort V} {e : Error} (h : Tells p furthest a e) :
      Means p furthest (.error a) (.broken e)

structure Accounts (p : Problem V) (before : Nat) (f : Finding V α) (out : Answer α × State V) :
    Prop where
  means : Means p out.2.furthest f.answer out.1
  furthest : out.2.furthest = max before f.reach
  remembers : Remembers out.2 f.memory

def Agrees (p : Problem V) (least : Nat) (x : Search V α) (y : Attempt V α) : Prop :=
  ∀ st memory, least ≤ st.furthest → Remembers st memory → Accounts p st.furthest (x memory) (y st)

variable {p : Problem V} {least : Nat}

omit [OfToken V] in
theorem Remembers.of_memo_eq {st st' : State V} {memory : Memory V} (h : Remembers st memory)
    (hmemo : st'.memo = st.memo) (hle : st.furthest ≤ st'.furthest) : Remembers st' memory where
  memo_eq place i := hmemo ▸ h.memo_eq place i
  le_furthest place i answer reach hkept := (h.le_furthest place i answer reach hkept).trans hle

omit [OfToken V] in
theorem Remembers.keep {st : State V} {memory : Memory V} (h : Remembers st memory)
    (place i : Nat) (answer : Option (Step V)) {reach : Nat} (hreach : reach ≤ st.furthest) :
    Remembers (st.remember place i answer) (memory.keep place i answer reach) where
  memo_eq q j := by
    rw [State.getElem?_memo_remember, h.memo_eq, Memory.keep, Function.update_apply]
    simp only [Prod.mk.injEq]
    split <;> rfl
  le_furthest q j answer' reach' hkept := by
    rw [Memory.keep, Function.update_apply] at hkept
    split at hkept
    · cases hkept
      exact hreach
    · exact h.le_furthest q j answer' reach' hkept

omit [OfToken V] in
theorem Means.ofOption (furthest : Nat) (answer : Option α) :
    Means p furthest (.ok answer) (.ofOption answer) := by
  cases answer with
  | some a => exact .found a
  | none => exact .missed

namespace Accounts

omit [OfToken V]

theorem still {st : State V} {memory : Memory V} (h : Remembers st memory) (st' : State V)
    (hmemo : st'.memo = st.memo) (hfurthest : st'.furthest = st.furthest)
    {answer : Except (Abort V) (Option α)} {a : Answer α} (hmeans : Means p st.furthest answer a) :
    Accounts p st.furthest ⟨answer, 0, memory⟩ (a, st') where
  means := hfurthest ▸ hmeans
  furthest := by rw [hfurthest, Nat.max_zero]
  remembers := h.of_memo_eq hmemo hfurthest.ge

theorem after {before reach : Nat} {f : Finding V α} {out : Answer α × State V}
    (h : Accounts p (max before reach) f out) : Accounts p before (f.after reach) out where
  means := h.means
  furthest := by rw [h.furthest, Finding.after, Nat.max_assoc]
  remembers := h.remembers

theorem keep {before : Nat} {f : Finding V (Step V)} {out : Answer (Step V) × State V}
    (h : Accounts p before f out) (place i : Nat) :
    Accounts p before (f.keep place i) (State.keep place i out) := by
  obtain ⟨answer, st⟩ := out
  obtain ⟨answer', reach, memory⟩ := f
  obtain ⟨hmeans, hfurthest, hremembers⟩ := h
  have hreach : reach ≤ st.furthest := hfurthest ▸ Nat.le_max_right _ _
  cases hmeans with
  | found step => exact ⟨.found step, hfurthest, hremembers.keep place i (some step) hreach⟩
  | missed => exact ⟨.missed, hfurthest, hremembers.keep place i none hreach⟩
  | broken h => exact ⟨.broken h, hfurthest, hremembers⟩

end Accounts

namespace Agrees

omit [OfToken V]

theorem found (a : α) : Agrees p least (.found a) (Attempt.found a) :=
  fun _ _ _ h => .still h _ rfl rfl (.found a)

theorem missed : Agrees (α := α) p least .missed Attempt.missed :=
  fun _ _ _ h => .still h _ rfl rfl .missed

theorem andElse {x : Search V α} {y : Attempt V α} {f : α → Search V β} {f' : α → Attempt V β}
    {m : Nat → Search V β} {m' : Attempt V β} (hx : Agrees p least x y)
    (hf : ∀ a, Agrees p 0 (f a) (f' a))
    (hm : ∀ own, (∃ memory, (x memory).answer = .ok none ∧ (x memory).reach = own) →
      Agrees p own (m own) m') : Agrees p least (x.andElse f m) (y.andElse f' m') := by
  intro st memory hle hst
  have hfirst := hx st memory hle hst
  rcases hout : y st with ⟨answer, st'⟩
  rcases hfound : x memory with ⟨answer', reach, memory'⟩
  rw [hout, hfound] at hfirst
  obtain ⟨hmeans, hfurthest, hremembers⟩ := hfirst
  dsimp only at hmeans hfurthest hremembers
  cases hmeans with
  | found a =>
    rw [Search.andElse_of_found hfound, Attempt.andElse_of_found hout]
    have hrest := hf a st' memory' (Nat.zero_le _) hremembers
    exact .after (hfurthest ▸ hrest)
  | missed =>
    rw [Search.andElse_of_missed hfound, Attempt.andElse_of_missed hout]
    have hreach : reach ≤ st'.furthest := hfurthest ▸ Nat.le_max_right _ _
    have hrest := hm reach ⟨memory, by rw [hfound], by rw [hfound]⟩ st' memory' hreach hremembers
    exact .after (hfurthest ▸ hrest)
  | broken h =>
    rw [Search.andElse_of_abort hfound, Attempt.andElse_of_broken hout]
    exact .after (hfurthest ▸ .still hremembers _ rfl rfl (.broken h))

end Agrees

omit [OfToken V] in
theorem agrees_escalate {rule : CompiledRule V} (soft : Bool) {slot : Slot} {place own : Nat}
    (hslot : slot ∈ rule.rhs) (hterminal : ∀ kind, slot = .terminal kind → own = place) :
    Agrees (α := α) p own
      (if rule.failHard && !soft then .abort (.lacking rule slot place own) else .missed)
      (p.escalate rule soft slot place) := by
  intro st memory hle hst
  unfold escalate
  split
  · next hhard =>
    rw [Bool.and_eq_true] at hhard
    exact .still hst _ rfl rfl (.broken (.lacking hhard.1 hslot hterminal hle))
  · exact .still hst _ rfl rfl .missed

omit [OfToken V] in
theorem agrees_reduce {rule : CompiledRule V} (hrule : rule ∈ p.grammar.rules.toList)
    (start stop : Nat) (values : List V) :
    Agrees p 0 (p.searchReduce rule start stop values) (p.reduce rule start stop values) := by
  intro st memory _ hst
  let reduced := st.record (.reduced rule.lhs start stop)
  unfold searchReduce reduce
  cases hreducer : rule.reducer with
  | some f =>
    cases hf : f (p.context rule.lhs start stop) values with
    | ok v =>
      simp only [hf]
      exact .still hst reduced rfl rfl (.found _)
    | error e =>
      simp only [hf]
      exact .still hst reduced rfl rfl (.broken (.rejected (.reducer hrule hreducer hf)))
  | none =>
    cases values.getLast? with
    | some v => exact .still hst _ rfl rfl (.found _)
    | none => exact .still hst _ rfl rfl (.broken (.rejected (.nothing rule.lhs start stop)))

section

variable {recur : Nat → Nat → Search V (Step V)} {recur' : Recursion V}

def RecursionAgrees (p : Problem V) (recur : Nat → Nat → Search V (Step V))
    (recur' : Recursion V) : Prop :=
  ∀ i place, Agrees p 0 (recur i place) (recur' i place)

theorem agrees_terminal (kind : Kind) (place : Nat) :
    Agrees p 0 (p.searchSlot recur (.terminal kind) place)
      (p.matchSlot recur' (.terminal kind) place) := by
  intro st memory _ hst
  have hmissed : Accounts (α := Step V) p st.furthest (Search.missedAt place memory)
      (.missed, (st.record (.tried place)).miss place) := by
    refine ⟨.missed, rfl, hst.of_memo_eq ?_ ?_⟩
    · rfl
    · exact Nat.le_max_left _ _
  unfold searchSlot matchSlot
  cases p.tokens[place]? with
  | none => exact hmissed
  | some t =>
    dsimp only
    split
    · exact .still hst (st.record (.tried place)) rfl rfl (.found _)
    · exact hmissed

theorem reach_of_missed_terminal {kind : Kind} {place : Nat} {memory : Memory V}
    (h : (p.searchSlot recur (.terminal kind) place memory).answer = .ok none) :
    (p.searchSlot recur (.terminal kind) place memory).reach = place := by
  unfold searchSlot at h ⊢
  cases ht : p.tokens[place]? with
  | none => rfl
  | some t =>
    simp only [ht] at h ⊢
    split
    · next hkind =>
      rw [if_pos hkind] at h
      cases h
    · rfl

variable (hrecur : RecursionAgrees p recur recur')

include hrecur

theorem agrees_slot (slot : Slot) (place : Nat) :
    Agrees p 0 (p.searchSlot recur slot place) (p.matchSlot recur' slot place) := by
  cases slot with
  | terminal kind => exact agrees_terminal kind place
  | nonTerminal i => exact hrecur i place

theorem agrees_sequence {rule : CompiledRule V} (soft : Bool) {slots : List Slot}
    (hslots : slots ⊆ rule.rhs) (place : Nat) :
    Agrees p 0 (p.searchSequence recur rule soft slots place)
      (p.sequence recur' rule soft slots place) := by
  induction slots generalizing soft place with
  | nil => exact .found _
  | cons slot rest ih =>
    obtain ⟨hslot, hrest⟩ := List.cons_subset.1 hslots
    apply (agrees_slot hrecur slot place).andElse
    · intro step
      exact (ih false hrest step.next).andElse (fun x => .found _) fun _ _ => .missed
    · rintro _ ⟨memory, hanswer, rfl⟩
      apply agrees_escalate soft hslot
      rintro kind rfl
      exact reach_of_missed_terminal hanswer

theorem agrees_choice (place : Nat) (base : Option (Step V)) {rules : List (CompiledRule V)}
    (hrules : rules ⊆ p.grammar.rules.toList) :
    Agrees p least (p.searchChoice recur place base rules) (p.choice recur' place base rules) := by
  induction rules generalizing least with
  | nil => exact .missed
  | cons rule rest ih =>
    obtain ⟨hrule, hrest⟩ := List.cons_subset.1 hrules
    have hsequence := agrees_sequence hrecur base.isSome (Comparison.slotsBehind_subset base rule)
      (startBehind base place)
    intro st memory _
    exact (hsequence.andElse (fun x => agrees_reduce hrule place x.2 _) fun _ _ => ih hrest)
      st memory (Nat.zero_le _)

theorem agrees_grow (place : Nat) {rules : List (CompiledRule V)}
    (hrules : rules ⊆ p.grammar.rules.toList) (fuel : Nat) (base : Step V) :
    Agrees p 0 (p.searchGrow recur place rules fuel base) (p.grow recur' place rules fuel base) := by
  induction fuel generalizing base with
  | zero => exact .found base
  | succ fuel ih =>
    exact (agrees_choice hrecur place (some base) hrules).andElse ih fun _ _ => .found base

theorem agrees_expand {g : Grammar V} (hp : g.CompilesTo p.grammar) {i : Nat} {spec : NonTerminal}
    (hspec : p.grammar.nonTerminals[i]? = some spec) (place : Nat) :
    Agrees p 0 (p.searchExpand recur i place) (p.expand recur' spec place) := by
  have hrules (b : Bool) : p.grammar.rulesOf i b ⊆ p.grammar.rules.toList :=
    fun rule h => (Grammar.CompilesTo.mem_rulesOf.1 h).1
  rw [expand_eq hp hspec]
  exact (agrees_choice hrecur place none (hrules false)).andElse
    (fun base => agrees_grow hrecur place (hrules true) _ base) fun _ _ => .missed

end

theorem agrees_nonTerminal {g : Grammar V} (hp : g.CompilesTo p.grammar) (depth : Nat) :
    RecursionAgrees p (p.searchNonTerminal depth) (p.matchNonTerminal depth) := by
  induction depth with
  | zero => exact fun i place => .missed
  | succ depth ih =>
    intro i place st memory _ hst
    have hmemo := hst.memo_eq place i
    unfold searchNonTerminal
    cases hkept : memory (place, i) with
    | some kept =>
      obtain ⟨answer, reach⟩ := kept
      rw [hkept] at hmemo
      rw [matchNonTerminal_of_kept hmemo]
      refine ⟨.ofOption _ answer, ?_, hst⟩
      exact (Nat.max_eq_left (hst.le_furthest place i answer reach hkept)).symm
    | none =>
      rw [hkept] at hmemo
      dsimp only
      split
      · next hi =>
        have hspec := Array.getElem?_eq_getElem hi
        rw [matchNonTerminal_of_fresh hmemo hspec]
        have hrecord : Remembers (st.record (.entered i place)) memory :=
          hst.of_memo_eq rfl (Nat.le_refl _)
        have henter : Remembers (st.enter place i) (memory.keep place i none 0) :=
          hrecord.keep place i none (Nat.zero_le _)
        exact (agrees_expand ih hp hspec place _ _ (Nat.zero_le _) henter).keep place i
      · next hi =>
        have hspec := Array.getElem?_eq_none (Nat.le_of_not_lt hi)
        rw [matchNonTerminal_succ, hmemo, hspec]
        exact .still hst _ rfl rfl .missed

theorem accounts_search {g : Grammar V} (hp : g.CompilesTo p.grammar) :
    Accounts p 0 p.search p.run := by
  have hempty : Remembers (V := V) {} fun _ => none :=
    ⟨fun place i => by simp, fun _ _ _ _ h => nomatch h⟩
  exact agrees_nonTerminal hp p.depth p.grammar.start 0 {} _ (Nat.zero_le _) hempty

/-! ## The help of an error -/

omit [OfToken V]

def stoppedAt (p : Problem V) (place : Nat) : Option String :=
  (p.tokenAt place).map fun t => s!"matching stopped at {t.descriptor} on line {t.line}"

/-- The help for a symbol that does not match at a place, if matching got as far as `reach`. -/
def helpFor (p : Problem V) (place reach : Nat) : Option String :=
  if place < reach then p.stoppedAt reach else none

theorem help_required (rule : CompiledRule V) (slot : Slot) (place furthest : Nat) :
    (p.required rule slot place furthest).help = p.helpFor place furthest := by
  unfold required helpFor
  dsimp only
  split
  · rw [if_neg (by omega)]
  · rw [if_pos (by omega)]
    rfl

theorem helpFor_eq_iff (hpos : 0 < p.tokens.size) {place own furthest : Nat}
    (hle : own ≤ furthest) :
    p.helpFor place furthest = p.helpFor place own ↔
      furthest ≤ place ∨ place < own ∧ p.stoppedAt own = p.stoppedAt furthest := by
  obtain ⟨t, ht⟩ := exists_tokenAt hpos furthest
  have hstopped : p.stoppedAt furthest ≠ none := by simp [stoppedAt, ht]
  unfold helpFor
  by_cases hown : place < own
  · rw [if_pos hown, if_pos (Nat.lt_of_lt_of_le hown hle)]
    have : ¬furthest ≤ place := by omega
    simp [hown, this, eq_comm]
  · rw [if_neg hown]
    by_cases hfurthest : place < furthest
    · simp [hown, hfurthest, Nat.not_le.2 hfurthest, hstopped]
    · simp [hfurthest, Nat.not_lt.1 hfurthest]

end Problem

variable {g : Grammar V} {lexer : Lexer} {p : Parser V}

/-- An error of a hard rule, unless it comes from the lexer or from a reduction, is about a symbol
that a search finds missing. Its help is not that of the symbol: it tells the last place missed
anywhere in the parse so far. The two are the same only if that place is not behind the symbol's, or
if matching the symbol itself got behind its place and stopped at such a token. -/
theorem help_eq_own_iff (hp : ofGrammar g lexer = .ok p) [OfToken V] (source : Source) (e : Error)
    (h : p.parse source = .error e) (hrequired : e.Required) :
    p.tokens source = .error e ∨ ∃ tokens, p.tokens source = .ok tokens ∧
      let problem : Problem V := ⟨p.grammar, tokens.toArray⟩
      let furthest := problem.run.2.furthest
      (∃ raw, problem.search.answer = .error (.rejected raw) ∧ problem.Rejects raw ∧
        e = raw.withSource source) ∨
      ∃ rule slot place own, problem.search.answer = .error (.lacking rule slot place own) ∧
        rule.failHard = true ∧ slot ∈ rule.rhs ∧ (∀ kind, slot = .terminal kind → own = place) ∧
          own ≤ furthest ∧ e = (problem.required rule slot place furthest).withSource source ∧
            (e.help = problem.helpFor place own ↔ furthest ≤ place ∨
              place < own ∧ problem.stoppedAt own = problem.stoppedAt furthest) := by
  cases htokens : p.tokens source with
  | error e' =>
    cases (parse_eq_error htokens).symm.trans h
    exact .inl rfl
  | ok tokens =>
    obtain ⟨raw, hrun, rfl⟩ := broken_of_required htokens h hrequired
    obtain ⟨d, hd, rfl⟩ := ofGrammar_eq_ok_iff.1 hp
    refine .inr ⟨tokens, rfl, ?_⟩
    have hmeans := (Problem.accounts_search (p := ⟨d, tokens.toArray⟩)
      (Grammar.compilesTo_of_compile hd)).means
    rw [hrun] at hmeans
    generalize hanswer : (Problem.mk d tokens.toArray).search.answer = answer at hmeans
    cases hmeans with
    | broken htells =>
      cases htells with
      | rejected hrejects => exact .inl ⟨raw, hanswer, hrejects, rfl⟩
      | @lacking rule slot place own hhard hslot hterminal hown =>
        have hhelp := Problem.help_required (p := ⟨d, tokens.toArray⟩) rule slot place
        refine .inr ⟨rule, slot, place, own, hanswer, hhard, hslot, hterminal, hown, rfl, ?_⟩
        exact (Eq.congr_left (hhelp _)).trans
          (Problem.helpFor_eq_iff (length_pos_of_tokens htokens) hown)

def grouped : Grammar Value where
  start := "item"
  rules :=
    let list : Option (Reducer Value) := some fun _ values => pure (.list values)
    [{ lhs := "item"
       rhs := [.terminal .name, .nonTerminal "group"]
       reducer := list
       failHard := true },
      { lhs := "group", rhs := [.terminal .string, .terminal .number], reducer := list }]

theorem help_eq_own_iff_grouped :
    ∃ lexer, Lexer.ofConfig .bare = .ok lexer ∧ ∃ p, ofGrammar grouped lexer = .ok p ∧
      ∃ e, p.parse ⟨"", "x 'a' y"⟩ = .error e ∧ e.Required ∧
        e.help = some "matching stopped at NAME(\"y\") on line 1" ∧
          ∃ tokens, p.tokens ⟨"", "x 'a' y"⟩ = .ok tokens ∧
            let problem : Problem Value := ⟨p.grammar, tokens.toArray⟩
            let furthest := problem.run.2.furthest
            ∃ rule, problem.search.answer = .error (.lacking rule (.nonTerminal 1) 1 2) ∧
              2 ≤ furthest ∧ (e.help = problem.helpFor 1 2 ↔ furthest ≤ 1 ∨
                1 < 2 ∧ problem.stoppedAt 2 = problem.stoppedAt furthest) := by
  obtain ⟨lexer, hlexer, p, hp, hplain, tokens, htokens, hlack⟩ :
      ∃ lexer, Lexer.ofConfig .bare = .ok lexer ∧ ∃ p, ofGrammar grouped lexer = .ok p ∧
        ((p.plain ⟨"", "x 'a' y"⟩).bind errorOf?).map (fun e => (e.cause, e.help)) =
          some (.requiredMatch "#item" "#group" "STRING(\"a\")",
            some "matching stopped at NAME(\"y\") on line 1") ∧
        ∃ tokens, p.tokens ⟨"", "x 'a' y"⟩ = .ok tokens ∧
          (Problem.mk p.grammar tokens.toArray).search.lack? = some (.nonTerminal 1, 1, 2) := by
    decide +kernel
  have hacyclic : grouped.Acyclic := Grammar.acyclic_of_descends (fun _ => 0) (by decide)
  obtain ⟨e, hparse, heq⟩ := error_of_plain hp hacyclic hplain
  obtain ⟨hcause, hhelp⟩ := Prod.mk.inj heq
  have hrequired : e.Required := ⟨_, _, _, hcause⟩
  obtain ⟨rule, hanswer⟩ := Finding.exists_rule_of_lack? hlack
  refine ⟨lexer, hlexer, p, hp, e, hparse, hrequired, hhelp, tokens, htokens, rule, hanswer, ?_⟩
  rcases help_eq_own_iff hp _ _ hparse hrequired with herror | ⟨tokens', htokens', hcases⟩
  · cases htokens.symm.trans herror
  · cases htokens.symm.trans htokens'
    rcases hcases with ⟨raw, hraw, -⟩ | ⟨rule', slot, place, own, hanswer', -, -, -, hle, -, hiff⟩
    · cases hanswer.symm.trans hraw
    · cases hanswer.symm.trans hanswer'
      exact ⟨hle, hiff⟩

/-- Two names and a number, or else a name that needs a number behind it. -/
def wayward : Grammar Value where
  start := "item"
  rules :=
    let list : Option (Reducer Value) := some fun _ values => pure (.list values)
    [{ lhs := "item"
       rhs := [.terminal .name, .terminal .name, .terminal .number]
       reducer := list },
      { lhs := "item"
        rhs := [.terminal .name, .terminal .number]
        reducer := list
        failHard := true }]

/-- What lacks is a number at the second name. The help tells the third one, which stopped the rule
that was given up before. -/
theorem help_ne_own_of_wayward :
    ∃ lexer, Lexer.ofConfig .bare = .ok lexer ∧ ∃ p, ofGrammar wayward lexer = .ok p ∧
      ∃ e, p.parse ⟨"", "x y z"⟩ = .error e ∧
        e.cause = .requiredMatch "#item" "NUMBER" "NAME(\"y\")" ∧
          e.help = some "matching stopped at NAME(\"z\") on line 1" ∧
            ∃ tokens, p.tokens ⟨"", "x y z"⟩ = .ok tokens ∧
              (∃ rule, (Problem.mk p.grammar tokens.toArray).search.answer =
                .error (.lacking rule (.terminal .number) 1 1)) ∧
                  (Problem.mk p.grammar tokens.toArray).helpFor 1 1 = none := by
  obtain ⟨lexer, hlexer, p, hp, hplain, tokens, htokens, hlack, hnone⟩ :
      ∃ lexer, Lexer.ofConfig .bare = .ok lexer ∧ ∃ p, ofGrammar wayward lexer = .ok p ∧
        ((p.plain ⟨"", "x y z"⟩).bind errorOf?).map (fun e => (e.cause, e.help)) =
          some (.requiredMatch "#item" "NUMBER" "NAME(\"y\")",
            some "matching stopped at NAME(\"z\") on line 1") ∧
        ∃ tokens, p.tokens ⟨"", "x y z"⟩ = .ok tokens ∧
          (Problem.mk p.grammar tokens.toArray).search.lack? = some (.terminal .number, 1, 1) ∧
            (Problem.mk p.grammar tokens.toArray).helpFor 1 1 = none := by
    decide +kernel
  have hacyclic : wayward.Acyclic := Grammar.acyclic_of_descends (fun _ => 0) (by decide)
  obtain ⟨e, hparse, heq⟩ := error_of_plain hp hacyclic hplain
  obtain ⟨hcause, hhelp⟩ := Prod.mk.inj heq
  exact ⟨lexer, hlexer, p, hp, e, hparse, hcause, hhelp, tokens, htokens,
    Finding.exists_rule_of_lack? hlack, hnone⟩

end Packrat.Parser
