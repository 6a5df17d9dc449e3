import Packrat.Parser
import Packrat.Proofs.Parser.Course

/-! Two matchers side by side, over the same tokens. Their non-terminals may have other numbers and
their errors may differ; step by step they come to the same answers and keep the same ones. The
comparison may end at certain errors of the first matcher, whatever the second one does then. -/

namespace Packrat

def Slot.renumber (number : Nat → Nat) : Slot → Slot
  | .terminal kind => .terminal kind
  | .nonTerminal i => .nonTerminal (number i)

@[simp] theorem Slot.renumber_id : Slot.renumber id = id := by
  funext slot
  cases slot <;> rfl

namespace Parser

variable {V α β : Type}

def Event.renumber (number : Nat → Nat) : Event → Event
  | .entered i place => .entered (number i) place
  | .tried place => .tried place
  | .reduced i start stop => .reduced (number i) start stop

structure Comparison : Type where
  size : Nat
  number : Nat → Nat
  alike : Error → Error → Prop
  /-- Errors of the first one behind which nothing is compared. -/
  final : Error → Prop

namespace Comparison

structure Same (k : Comparison) (st st' : State V) : Prop where
  memo (place i : Nat) : i < k.size → st'.memo[(place, k.number i)]? = st.memo[(place, i)]?
  furthest : st'.furthest = st.furthest
  events : st'.events = st.events.map (.renumber k.number)

inductive Like (k : Comparison) : Answer α → Answer α → Prop
  | found (a : α) : Like k (.found a) (.found a)
  | missed : Like k .missed .missed
  | broken {e e' : Error} : k.alike e e' → Like k (.broken e) (.broken e')

def Agree (k : Comparison) (out out' : Answer α × State V) : Prop :=
  (∃ e, out.1 = .broken e ∧ k.final e) ∨ k.Like out.1 out'.1 ∧ k.Same out.2 out'.2

def Mirrors (k : Comparison) (x y : Attempt V α) : Prop :=
  ∀ st st', k.Same st st' → k.Agree (x st) (y st')

variable {k : Comparison} {st st' : State V}

namespace Same

theorem empty : k.Same ({} : State V) {} := ⟨by simp, rfl, rfl⟩

theorem record (h : k.Same st st') {e e' : Event} (he : e' = e.renumber k.number) :
    k.Same (st.record e) (st'.record e') where
  memo := h.memo
  furthest := h.furthest
  events := by simp [State.record, h.events, he]

theorem miss (h : k.Same st st') (place : Nat) : k.Same (st.miss place) (st'.miss place) where
  memo := h.memo
  furthest := by simp [State.miss, h.furthest]
  events := h.events

theorem remember (h : k.Same st st') {i : Nat}
    (hinj : ∀ j < k.size, k.number j = k.number i → j = i) (place : Nat)
    (answer : Option (Step V)) :
    k.Same (st.remember place i answer) (st'.remember place (k.number i) answer) where
  memo q j hj := by
    have heq : k.number j = k.number i ↔ j = i := ⟨hinj j hj, congrArg k.number⟩
    simp only [State.getElem?_memo_remember, heq, h.memo q j hj]
  furthest := h.furthest
  events := h.events

theorem enter (h : k.Same st st') {i : Nat}
    (hinj : ∀ j < k.size, k.number j = k.number i → j = i) (place : Nat) :
    k.Same (st.enter place i) (st'.enter place (k.number i)) :=
  (h.record rfl).remember hinj place none

end Same

theorem Agree.exists_broken {out out' : Answer α × State V} (h : k.Agree out out') {e : Error}
    (hout : out.1 = .broken e) : k.final e ∨ ∃ e', out'.1 = .broken e' ∧ k.alike e e' := by
  rcases out with ⟨a, st⟩
  rcases out' with ⟨a', st'⟩
  cases hout
  rcases h with ⟨_, he, hfinal⟩ | ⟨hlike, -⟩
  · cases he
    exact .inl hfinal
  · cases hlike with
    | broken he => exact .inr ⟨_, rfl, he⟩

theorem Agree.keep {out out' : Answer (Step V) × State V} (h : k.Agree out out') {i : Nat}
    (hinj : ∀ j < k.size, k.number j = k.number i → j = i) (place : Nat) :
    k.Agree (State.keep place i out) (State.keep place (k.number i) out') := by
  rcases out with ⟨a, st⟩
  rcases out' with ⟨a', st'⟩
  rcases h with ⟨e, rfl, hfinal⟩ | ⟨hlike, hsame⟩
  · exact .inl ⟨e, rfl, hfinal⟩
  · cases hlike with
    | found step => exact .inr ⟨.found step, hsame.remember hinj place (some step)⟩
    | missed => exact .inr ⟨.missed, hsame.remember hinj place none⟩
    | broken he => exact .inr ⟨.broken he, hsame⟩

namespace Mirrors

theorem found (a : α) : k.Mirrors (V := V) (Attempt.found a) (Attempt.found a) :=
  fun _ _ h => .inr ⟨.found a, h⟩

theorem missed : k.Mirrors (V := V) (α := α) Attempt.missed Attempt.missed :=
  fun _ _ h => .inr ⟨.missed, h⟩

theorem andElse {x y : Attempt V α} {f f' : α → Attempt V β} {m m' : Attempt V β}
    (hx : k.Mirrors x y) (hf : ∀ a, k.Mirrors (f a) (f' a)) (hm : k.Mirrors m m') :
    k.Mirrors (x.andElse f m) (y.andElse f' m') := by
  intro st st' h
  unfold Attempt.andElse
  rcases hx st st' h with ⟨e, he, hfinal⟩ | ⟨hlike, hsame⟩
  · rcases hout : x st with ⟨_ | _ | _, _⟩ <;> rw [hout] at he <;> cases he
    exact .inl ⟨e, rfl, hfinal⟩
  · revert hlike hsame
    rcases x st with ⟨a, mid⟩
    rcases y st' with ⟨a', mid'⟩
    intro hlike hsame
    cases hlike with
    | found a => exact hf a mid mid' hsame
    | missed => exact hm mid mid' hsame
    | broken he => exact .inr ⟨.broken he, hsame⟩

end Mirrors

def Results (k : Comparison) : Except Error V → Except Error V → Prop
  | .ok v, r => r = .ok v
  | .error e, r => ∃ e', r = .error e' ∧ k.alike e e'

structure RuleLike (k : Comparison) (p q : Problem V) (rule rule' : CompiledRule V) : Prop where
  lhs : rule'.lhs = k.number rule.lhs
  rhs : rule'.rhs = rule.rhs.map (.renumber k.number)
  slot_lt_size (j : Nat) : .nonTerminal j ∈ rule.rhs → j < k.size
  context (start stop : Nat) : q.context rule'.lhs start stop = p.context rule.lhs start stop
  reducer (f : Reducer V) : rule.reducer = some f → ∃ f', rule'.reducer = some f' ∧
    ∀ start stop values, k.Results (f (p.context rule.lhs start stop) values)
      (f' (p.context rule.lhs start stop) values)
  no_reducer : rule.reducer = none → rule'.reducer = none ∧ ∀ start stop,
    let e := (p.context rule.lhs start stop).error "nothing to reduce"
    k.final e ∨ k.alike e e
  soft : rule.failHard = false → rule'.failHard = false
  hard (slot : Slot) (place furthest : Nat) : rule.failHard = true → slot ∈ rule.rhs →
    let e := p.required rule slot place furthest
    k.final e ∨ rule'.failHard = true ∧
      k.alike e (q.required rule' (slot.renumber k.number) place furthest)

section

variable {p q : Problem V} {rule rule' : CompiledRule V}

theorem mirrors_escalate (h : k.RuleLike p q rule rule') (soft : Bool) {slot : Slot}
    (hslot : slot ∈ rule.rhs) (place : Nat) :
    k.Mirrors (α := α) (p.escalate rule soft slot place)
      (q.escalate rule' soft (slot.renumber k.number) place) := by
  intro st st' hst
  unfold Problem.escalate
  cases hhard : rule.failHard with
  | false =>
    simp only [h.soft hhard, Bool.false_and, Bool.false_eq_true, if_false]
    exact .inr ⟨.missed, hst⟩
  | true =>
    cases soft with
    | true =>
      simp only [Bool.not_true, Bool.and_false, Bool.false_eq_true, if_false]
      exact .inr ⟨.missed, hst⟩
    | false =>
      rcases h.hard slot place st.furthest hhard hslot with hfinal | ⟨hhard', hlike⟩
      · exact .inl ⟨_, rfl, hfinal⟩
      · simp only [hhard', Bool.not_false, Bool.and_true, if_true, hst.furthest]
        exact .inr ⟨.broken hlike, hst⟩

theorem mirrors_reduce (h : k.RuleLike p q rule rule') (start stop : Nat) (values : List V) :
    k.Mirrors (p.reduce rule start stop values) (q.reduce rule' start stop values) := by
  intro st st' hst
  unfold Problem.reduce
  rw [h.context]
  cases hreducer : rule.reducer with
  | some f =>
    obtain ⟨f', hf', hresults⟩ := h.reducer f hreducer
    have hst := hst.record (e := .reduced rule.lhs start stop)
      (congrArg (Event.reduced · start stop) h.lhs)
    have hresult := hresults start stop values
    simp only [hf']
    revert hresult
    cases f (p.context rule.lhs start stop) values with
    | ok v =>
      intro hresult
      rw [hresult]
      exact .inr ⟨.found _, hst⟩
    | error e =>
      rintro ⟨e', hresult, hlike⟩
      rw [hresult]
      exact .inr ⟨.broken hlike, hst⟩
  | none =>
    obtain ⟨hnone, hlike⟩ := h.no_reducer hreducer
    simp only [hnone]
    cases values.getLast? with
    | some v => exact .inr ⟨.found _, hst⟩
    | none =>
      rcases hlike start stop with hfinal | hlike
      · exact .inl ⟨_, rfl, hfinal⟩
      · exact .inr ⟨.broken hlike, hst⟩

end

section

variable [OfToken V] {p q : Problem V} {rule rule' : CompiledRule V} {recur recur' : Recursion V}

def RecursionMirrors (k : Comparison) (recur recur' : Recursion V) : Prop :=
  ∀ i place, i < k.size → k.Mirrors (recur i place) (recur' (k.number i) place)

theorem mirrors_matchSlot (htokens : q.tokens = p.tokens) (hrecur : k.RecursionMirrors recur recur')
    {slot : Slot} (hslot : ∀ j, slot = .nonTerminal j → j < k.size) (place : Nat) :
    k.Mirrors (p.matchSlot recur slot place)
      (q.matchSlot recur' (slot.renumber k.number) place) := by
  cases slot with
  | nonTerminal j => exact hrecur j place (hslot j rfl)
  | terminal kind =>
    intro st st' hst
    have hst := hst.record (e := .tried place) rfl
    simp only [Slot.renumber, Problem.matchSlot, htokens]
    split
    · split
      · exact .inr ⟨.found _, hst⟩
      · exact .inr ⟨.missed, hst.miss place⟩
    · exact .inr ⟨.missed, hst.miss place⟩

theorem mirrors_sequence (htokens : q.tokens = p.tokens) (hrecur : k.RecursionMirrors recur recur')
    (h : k.RuleLike p q rule rule') (soft : Bool) {slots : List Slot} (hslots : slots ⊆ rule.rhs)
    (place : Nat) :
    k.Mirrors (p.sequence recur rule soft slots place)
      (q.sequence recur' rule' soft (slots.map (.renumber k.number)) place) := by
  induction slots generalizing soft place with
  | nil => exact .found _
  | cons slot rest ih =>
    obtain ⟨hslot, hrest⟩ := List.cons_subset.1 hslots
    apply Mirrors.andElse
    · exact mirrors_matchSlot htokens hrecur (fun j hj => h.slot_lt_size j (hj ▸ hslot)) place
    · intro step
      exact (ih false hrest step.next).andElse (fun x => .found _) .missed
    · exact mirrors_escalate h soft hslot place

omit [OfToken V] in
theorem slotsBehind_eq (h : k.RuleLike p q rule rule') (base : Option (Step V)) :
    Problem.slotsBehind base rule' = (Problem.slotsBehind base rule).map (.renumber k.number) := by
  cases base <;> simp [Problem.slotsBehind, h.rhs]

omit [OfToken V] in
theorem slotsBehind_subset (base : Option (Step V)) (rule : CompiledRule V) :
    Problem.slotsBehind base rule ⊆ rule.rhs := by
  cases base with
  | none => exact List.Subset.refl _
  | some base => exact List.tail_sublist _ |>.subset

theorem mirrors_choice (htokens : q.tokens = p.tokens) (hrecur : k.RecursionMirrors recur recur')
    {rules rules' : List (CompiledRule V)} (h : List.Forall₂ (k.RuleLike p q) rules rules')
    (place : Nat) (base : Option (Step V)) :
    k.Mirrors (p.choice recur place base rules) (q.choice recur' place base rules') := by
  induction h with
  | nil => exact .missed
  | @cons rule rule' _ _ hrule _ ih =>
    simp only [Problem.choice, slotsBehind_eq hrule]
    apply Mirrors.andElse _ _ ih
    · exact mirrors_sequence htokens hrecur hrule _ (slotsBehind_subset base rule) _
    · exact fun x => mirrors_reduce hrule place x.2 _

/-- The matchers have the same tokens, and the rules that they try for a non-terminal, ordinary ones
or those that extend a match, come to the same if the non-terminals in them do. -/
structure Compares (k : Comparison) (p q : Problem V) : Prop where
  tokens : q.tokens = p.tokens
  size : p.grammar.nonTerminals.size = k.size
  size_eq : q.grammar.nonTerminals.size = p.grammar.nonTerminals.size
  start : q.grammar.start = k.number p.grammar.start
  number_lt (i : Nat) : i < k.size → k.number i < k.size
  number_injective (i j : Nat) : i < k.size → j < k.size → k.number i = k.number j → i = j
  choice {recur recur' : Recursion V} (hrecur : k.RecursionMirrors recur recur') (i place : Nat)
    (base : Option (Step V)) : i < k.size →
      k.Mirrors (p.choice recur place base (p.grammar.rulesOf i base.isSome))
        (q.choice recur' place base (q.grammar.rulesOf (k.number i) base.isSome))

theorem Compares.of_rules (htokens : q.tokens = p.tokens)
    (hsize : p.grammar.nonTerminals.size = k.size)
    (hsize' : q.grammar.nonTerminals.size = p.grammar.nonTerminals.size)
    (hstart : q.grammar.start = k.number p.grammar.start)
    (hlt : ∀ i, i < k.size → k.number i < k.size)
    (hinj : ∀ i j, i < k.size → j < k.size → k.number i = k.number j → i = j)
    (hrules : ∀ i b, i < k.size →
      List.Forall₂ (k.RuleLike p q) (p.grammar.rulesOf i b) (q.grammar.rulesOf (k.number i) b)) :
    k.Compares p q :=
  ⟨htokens, hsize, hsize', hstart, hlt, hinj, fun hrecur i place base hi =>
    mirrors_choice htokens hrecur (hrules i base.isSome hi) place base⟩

namespace Compares

variable {g h : Grammar V} (hp : g.CompilesTo p.grammar) (hq : h.CompilesTo q.grammar)
  (hk : k.Compares p q)

include hk

theorem mirrors_grow (hrecur : k.RecursionMirrors recur recur') {i : Nat} (hi : i < k.size)
    (place fuel : Nat) (base : Step V) :
    k.Mirrors (p.grow recur place (p.grammar.rulesOf i true) fuel base)
      (q.grow recur' place (q.grammar.rulesOf (k.number i) true) fuel base) := by
  induction fuel generalizing base with
  | zero => exact .found base
  | succ fuel ih => exact (hk.choice hrecur i place (some base) hi).andElse ih (.found base)

include hp hq

theorem mirrors_expand (hrecur : k.RecursionMirrors recur recur') {i : Nat} (hi : i < k.size)
    {spec spec' : NonTerminal} (hspec : p.grammar.nonTerminals[i]? = some spec)
    (hspec' : q.grammar.nonTerminals[k.number i]? = some spec') (place : Nat) :
    k.Mirrors (p.expand recur spec place) (q.expand recur' spec' place) := by
  rw [Problem.expand_eq hp hspec, Problem.expand_eq hq hspec', hk.tokens]
  apply (hk.choice hrecur i place none hi).andElse _ .missed
  exact fun base => hk.mirrors_grow hrecur hi place _ base

theorem mirrors_matchNonTerminal (depth : Nat) :
    k.RecursionMirrors (p.matchNonTerminal depth) (q.matchNonTerminal depth) := by
  induction depth with
  | zero => exact fun i place _ => .missed
  | succ depth ih =>
    intro i place hi st st' hst
    have hinj (j : Nat) (hj : j < k.size) := hk.number_injective j i hj hi
    cases hmemo : st.memo[(place, i)]? with
    | some answer =>
      rw [Problem.matchNonTerminal_of_kept hmemo,
        Problem.matchNonTerminal_of_kept ((hst.memo place i hi).trans hmemo)]
      cases answer with
      | none => exact .inr ⟨.missed, hst⟩
      | some step => exact .inr ⟨.found step, hst⟩
    | none =>
      have hspec := Array.getElem?_eq_getElem (hk.size ▸ hi)
      have hspec' := Array.getElem?_eq_getElem (hk.size_eq ▸ hk.size ▸ hk.number_lt i hi)
      rw [Problem.matchNonTerminal_of_fresh hmemo hspec,
        Problem.matchNonTerminal_of_fresh ((hst.memo place i hi).trans hmemo) hspec']
      have hexpand := hk.mirrors_expand hp hq ih hi hspec hspec' place
      exact (hexpand _ _ (hst.enter hinj place)).keep hinj place

theorem agree_run : k.Agree p.run q.run := by
  have hdepth : q.depth = p.depth := by
    simp only [Problem.depth, hk.tokens, hk.size_eq]
  have hstart : p.grammar.start < k.size := hk.size ▸ hp.lt_size hp.start
  unfold Problem.run
  rw [hdepth, hk.start]
  exact hk.mirrors_matchNonTerminal hp hq p.depth p.grammar.start 0 hstart {} {} .empty

end Compares

end

end Comparison

/-! ## What a parser makes of a run -/

namespace Answer

def found? : Answer α → Option α
  | found a => some a
  | _ => none

def error? : Answer α → Option Error
  | broken e => some e
  | _ => none

@[simp] theorem found?_eq_some_iff {answer : Answer α} {a : α} :
    answer.found? = some a ↔ answer = .found a := by
  cases answer <;> simp [found?]

@[simp] theorem error?_eq_some_iff {answer : Answer α} {e : Error} :
    answer.error? = some e ↔ answer = .broken e := by
  cases answer <;> simp [error?]

end Answer

namespace Problem

def outcome (p : Problem V) (source : Source) :
    Answer (Step V) × State V → Except Error (Outcome V)
  | (.found step, _) => pure (.matched step.value step.next)
  | (.missed, st) =>
    match p.tokenAt st.furthest with
    | some t => pure (.failed t)
    | none => throw { cause := .noMatch "", source := some source }
  | (.broken e, _) => throw (e.withSource source)

end Problem

theorem parse_eq_outcome [OfToken V] {p : Parser V} {source : Source} {tokens : List Token}
    (h : p.tokens source = .ok tokens) :
    p.parse source = (Problem.mk p.grammar tokens.toArray).outcome source
      (Problem.mk p.grammar tokens.toArray).run := by
  unfold parse trace
  rw [h]
  dsimp only
  rcases (Problem.mk p.grammar tokens.toArray).run with ⟨_ | _ | e, st⟩ <;> rfl

theorem parse_eq_error [OfToken V] {p : Parser V} {source : Source} {e : Error}
    (h : p.tokens source = .error e) : p.parse source = .error e := by
  unfold parse trace
  rw [h]
  rfl

theorem parse_of_found [OfToken V] {p : Parser V} {source : Source} {tokens : List Token}
    (h : p.tokens source = .ok tokens) {step : Step V}
    (hrun : (Problem.mk p.grammar tokens.toArray).run.1 = .found step) :
    p.parse source = .ok (.matched step.value step.next) := by
  rw [parse_eq_outcome h]
  revert hrun
  rcases (Problem.mk p.grammar tokens.toArray).run with ⟨a, st⟩
  rintro rfl
  rfl

theorem parse_of_broken [OfToken V] {p : Parser V} {source : Source} {tokens : List Token}
    (h : p.tokens source = .ok tokens) {e : Error}
    (hrun : (Problem.mk p.grammar tokens.toArray).run.1 = .broken e) :
    p.parse source = .error (e.withSource source) := by
  rw [parse_eq_outcome h]
  revert hrun
  rcases (Problem.mk p.grammar tokens.toArray).run with ⟨a, st⟩
  rintro rfl
  rfl

theorem missed_of_failed [OfToken V] {p : Parser V} {source : Source} {t : Token}
    (h : p.parse source = .ok (.failed t)) :
    ∃ tokens, p.tokens source = .ok tokens ∧
      (Problem.mk p.grammar tokens.toArray).run.1 = .missed ∧
        (Problem.mk p.grammar tokens.toArray).tokenAt
          (Problem.mk p.grammar tokens.toArray).run.2.furthest = some t := by
  cases htokens : p.tokens source with
  | error e =>
    rw [parse_eq_error htokens] at h
    cases h
  | ok tokens =>
    refine ⟨tokens, rfl, ?_⟩
    rw [parse_eq_outcome htokens] at h
    rcases hrun : (Problem.mk p.grammar tokens.toArray).run with ⟨_ | _ | raw, st⟩ <;>
      rw [hrun] at h
    · cases h
    · rw [Problem.outcome] at h
      split at h
      · next ht =>
        cases h
        exact ⟨rfl, ht⟩
      · cases h
    · cases h

theorem broken_of_error [OfToken V] {p : Parser V} {source : Source} {tokens : List Token}
    (htokens : p.tokens source = .ok tokens) {e : Error} (h : p.parse source = .error e) :
    e = { cause := .noMatch "", source := some source } ∨
      ∃ raw, (Problem.mk p.grammar tokens.toArray).run.1 = .broken raw ∧
        e = raw.withSource source := by
  rw [parse_eq_outcome htokens] at h
  rcases hrun : (Problem.mk p.grammar tokens.toArray).run with ⟨_ | _ | raw, st⟩ <;> rw [hrun] at h
  · cases h
  · rw [Problem.outcome] at h
    split at h <;> cases h
    exact .inl rfl
  · cases h
    exact .inr ⟨raw, rfl, rfl⟩

theorem Comparison.Agree.outcome_eq {k : Comparison} {p q : Problem V}
    {out out' : Answer (Step V) × State V} (h : k.Agree out out')
    (halike : ∀ e e', k.alike e e' → e' = e) (htokens : q.tokens = p.tokens) (source : Source) :
    (∃ e, out.1 = .broken e ∧ k.final e) ∨ q.outcome source out' = p.outcome source out := by
  apply h.imp_right
  rcases out with ⟨a, st⟩
  rcases out' with ⟨a', st'⟩
  rintro ⟨hlike, hsame⟩
  cases hlike with
  | found step => rfl
  | missed =>
    change (match q.tokenAt st'.furthest with | some t => _ | none => _) = _
    rw [Problem.tokenAt, htokens, hsame.furthest]
    rfl
  | broken he =>
    rw [halike _ _ he]
    rfl

end Parser

end Packrat
