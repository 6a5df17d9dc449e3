import Packrat.Proofs.Parser.Sound

namespace Packrat

variable {V : Type}

/-- Symbol number `k` of a hard rule is missing at `place`: those before it derive from the tokens
from `start` up to there, and a token there is not of the kind that was asked for. A rule that
extends a match is given up quietly unless it takes a symbol behind the match. -/
structure Grammar.Missing (g : Grammar V) (tokens : List Token) (r : Rule V) (k : Nat)
    (symbol : Symbol) (start place : Nat) : Prop where
  mem : r ∈ g.rules
  failHard : r.failHard = true
  getElem?_eq : r.rhs[k]? = some symbol
  start_le : start ≤ place
  le_length : place ≤ tokens.length
  derived : ∃ trees, List.Forall₂ g.Derives (r.rhs.take k) trees ∧
    Tree.allTokens trees = (tokens.take place).drop start
  kind_ne (kind : Kind) (t : Token) :
    symbol = .terminal kind → tokens[place]? = some t → t.kind ≠ kind
  two_le : r.isLeftRecursive = true → 2 ≤ k

namespace Parser

namespace Problem

variable {α β : Type}

inductive Rejects (p : Problem V) : Error → Prop
  | reducer {rule : CompiledRule V} (hrule : rule ∈ p.grammar.rules.toList) {f : Reducer V}
      (hf : rule.reducer = some f) {start stop : Nat} {values : List V} {e : Error}
      (h : f (p.context rule.lhs start stop) values = .error e) : Rejects p e
  | nothing (i start stop : Nat) :
      Rejects p ((p.context i start stop).error "nothing to reduce")

inductive Demands (p : Problem V) (g : Grammar V) : Error → Prop
  | missing {r : Rule V} {k start place : Nat} {symbol : Symbol} (rule : CompiledRule V)
      (slot : Slot) (furthest : Nat)
      (hmissing : g.Missing p.tokens.toList r k symbol start place)
      (hrule : p.grammar.name rule.lhs = r.lhs) (hslot : p.grammar.slotName slot = symbol.display) :
      Demands p g (p.required rule slot place furthest)

def Explains (p : Problem V) (g : Grammar V) (e : Error) : Prop := p.Rejects e ∨ p.Demands g e

variable [OfToken V]

def Fails (p : Problem V) (g : Grammar V) (E : Error → Prop) (x : Attempt V α) : Prop :=
  ∀ st, Sound p g st → ∀ e, (x st).1 = .broken e → E e

variable {p : Problem V} {g : Grammar V} {E : Error → Prop}

namespace Fails

theorem found (a : α) : Fails p g E (Attempt.found a) := fun _ _ _ h => nomatch h

theorem missed : Fails (α := α) p g E Attempt.missed := fun _ _ _ h => nomatch h

theorem mono {x : Attempt V α} {E' : Error → Prop} (h : Fails p g E x) (hE : ∀ e, E e → E' e) :
    Fails p g E' x :=
  fun st hst e he => hE e (h st hst e he)

theorem andElse {R : α → Prop} {x : Attempt V α} {f : α → Attempt V β} {m : Attempt V β}
    (hkeeps : Keeps p g R x) (hx : Fails p g E x) (hf : ∀ a, R a → Fails p g E (f a))
    (hm : (∃ st, (x st).1 = .missed) → Fails p g E m) : Fails p g E (x.andElse f m) := by
  intro st hst e he
  obtain ⟨hst', hfound⟩ := hkeeps st hst
  have hbroken := hx st hst
  rcases hout : x st with ⟨a | _ | e', st'⟩ <;> rw [hout] at hst' hfound hbroken
  · rw [Attempt.andElse_of_found hout] at he
    exact hf a (hfound a rfl) st' hst' e he
  · rw [Attempt.andElse_of_missed hout] at he
    exact hm ⟨st, congrArg Prod.fst hout⟩ st' hst' e he
  · rw [Attempt.andElse_of_broken hout] at he
    cases he
    exact hbroken e rfl

end Fails

omit [OfToken V] in
theorem slotName_eq (hp : g.CompilesTo p.grammar) {s : Symbol} {slot : Slot}
    (h : Grammar.Resolves g.names s slot) : p.grammar.slotName slot = s.display := by
  cases h with
  | terminal kind => rfl
  | nonTerminal hname => rw [CompiledGrammar.slotName, hp.name_eq hname, Symbol.display]

theorem fails_reduce {rule : CompiledRule V} (hrule : rule ∈ p.grammar.rules.toList)
    (start stop : Nat) (values : List V) :
    Fails p g p.Rejects (p.reduce rule start stop values) := by
  intro st _ e he
  unfold reduce at he
  cases hreducer : rule.reducer with
  | some f =>
    simp only [hreducer] at he
    cases hf : f (p.context rule.lhs start stop) values with
    | ok v =>
      rw [hf] at he
      cases he
    | error e' =>
      rw [hf] at he
      cases he
      exact .reducer hrule hreducer hf
  | none =>
    simp only [hreducer] at he
    cases hlast : values.getLast? with
    | some v =>
      rw [hlast] at he
      cases he
    | none =>
      rw [hlast] at he
      cases he
      exact .nothing rule.lhs start stop

variable {recur : Recursion V}

def RecursionFails (p : Problem V) (g : Grammar V) (E : Error → Prop) (recur : Recursion V) : Prop :=
  ∀ i place, place ≤ p.tokens.size → Fails p g E (recur i place)

theorem kind_ne_of_missed {kind : Kind} {t : Token} {place : Nat} {st : State V}
    (h : (p.matchSlot recur (.terminal kind) place st).1 = .missed) (ht : p.tokens[place]? = some t) :
    t.kind ≠ kind := by
  intro heq
  unfold matchSlot at h
  simp [ht, heq] at h

theorem fails_matchSlot (hrecur : RecursionFails p g E recur) (slot : Slot) {place : Nat}
    (hle : place ≤ p.tokens.size) : Fails p g E (p.matchSlot recur slot place) := by
  cases slot with
  | nonTerminal i => exact hrecur i place hle
  | terminal kind =>
    intro st _ e he
    unfold matchSlot at he
    dsimp only at he
    split at he
    · split at he <;> cases he
    · cases he

theorem fails_escalate (hp : g.CompilesTo p.grammar) {r : Rule V} {rule : CompiledRule V}
    (hr : r ∈ g.rules) (hrule : Grammar.RuleCompiles g.names r rule) {soft : Bool}
    {front behind : List Symbol} {s : Symbol} {slot : Slot} (hs : Grammar.Resolves g.names s slot)
    {start place : Nat} {values : List V} (hrhs : r.rhs = front ++ s :: behind)
    (hfront : Matched p g front start place values)
    (htwo : r.isLeftRecursive = true → soft = false → 2 ≤ front.length)
    (hmissed : ∃ st, (p.matchSlot recur slot place st).1 = .missed) :
    Fails (α := α) p g (p.Explains g) (p.escalate rule soft slot place) := by
  intro st _ e he
  unfold escalate at he
  split at he
  · next hhard =>
    rw [Bool.and_eq_true, Bool.not_eq_true'] at hhard
    cases he
    have hmissing : g.Missing p.tokens.toList r front.length s start place := {
      mem := hr
      failHard := hrule.failHard.symm.trans hhard.1
      getElem?_eq := by simp [hrhs]
      start_le := Nat.le_of_add_right_le hfront.length_le
      le_length := hfront.le_size
      derived := by
        obtain ⟨trees, htrees, htokens, -⟩ := hfront.derived
        refine ⟨trees, by simpa [hrhs] using htrees, ?_⟩
        simp [htokens, List.drop_take]
      kind_ne := fun kind t hkind ht => by
        subst hkind
        cases hs
        obtain ⟨missed, hmissed⟩ := hmissed
        exact kind_ne_of_missed hmissed (by simpa using ht)
      two_le := fun hrec => htwo hrec hhard.2 }
    exact .inr (.missing rule slot _ hmissing (hp.name_eq hrule.lhs) (slotName_eq hp hs))
  · cases he

section

variable (hp : g.CompilesTo p.grammar) (hkeeps : RecursionKeeps p g recur)
  (hrecur : RecursionFails p g (p.Explains g) recur)

include hp hkeeps hrecur

theorem fails_sequence {r : Rule V} {rule : CompiledRule V} (hr : r ∈ g.rules)
    (hrule : Grammar.RuleCompiles g.names r rule) {soft : Bool} {front behind : List Symbol}
    {slots : List Slot} (hbehind : List.Forall₂ (Grammar.Resolves g.names) behind slots)
    {start place : Nat} {values : List V} (hrhs : r.rhs = front ++ behind)
    (hfront : Matched p g front start place values)
    (hone : r.isLeftRecursive = true → 1 ≤ front.length)
    (htwo : r.isLeftRecursive = true → soft = false → 2 ≤ front.length) :
    Fails p g (p.Explains g) (p.sequence recur rule soft slots place) := by
  induction hbehind generalizing soft front place values with
  | nil => exact .found _
  | @cons s slot behind slots hs hbehind ih =>
    have hle := hfront.le_size
    refine .andElse (keeps_matchSlot hp hkeeps hs hle) (fails_matchSlot hrecur slot hle) ?_ ?_
    · intro step hstep
      have hrest : Fails p g (p.Explains g) (p.sequence recur rule false slots step.next) := by
        apply ih (by rw [hrhs, List.append_assoc]; rfl) (hfront.append hstep)
        · simp
        · intro hrec _
          rw [List.length_append, List.length_singleton]
          exact Nat.succ_le_succ (hone hrec)
      exact .andElse (keeps_sequence hp hkeeps rule false hbehind hstep.le_size) hrest
        (fun x _ => .found _) fun _ => .missed
    · exact fails_escalate hp hr hrule hs hrhs hfront htwo

theorem fails_choice {i place : Nat} (base : Option (Step V)) (hle : place ≤ p.tokens.size)
    (hbase : ∀ step, base = some step →
      Matched p g [.nonTerminal (p.grammar.name i)] place step.next [step.value]) :
    Fails p g (p.Explains g)
      (p.choice recur place base (p.grammar.rulesOf i base.isSome)) := by
  have hmatched := matched_base hle hbase
  suffices h : ∀ rules ⊆ p.grammar.rulesOf i base.isSome,
      Fails p g (p.Explains g) (p.choice recur place base rules) from h _ (List.Subset.refl _)
  intro rules hrules
  induction rules with
  | nil => exact .missed
  | cons rule rest ih =>
    obtain ⟨hrule, hrest⟩ := List.cons_subset.1 hrules
    obtain ⟨-, r, hr, hcr, hrec, behind, hrhs, hbehind⟩ := exists_behind_of_mem_rulesOf hp hrule
    refine .andElse (keeps_sequence hp hkeeps rule _ hbehind hmatched.le_size) ?_ ?_ ?_
    · apply fails_sequence hp hkeeps hrecur hr hcr hbehind hrhs hmatched
      · intro h
        obtain ⟨step, rfl⟩ := Option.isSome_iff_exists.1 (hrec.symm.trans h)
        exact Nat.le_refl 1
      · intro h hsoft
        cases (hrec.symm.trans h).symm.trans hsoft
    · intro x _
      have hmem := (Grammar.CompilesTo.mem_rulesOf.1 hrule).1
      exact (fails_reduce hmem place x.2 _).mono fun _ => .inl
    · exact fun _ => ih hrest

theorem fails_grow {i place fuel : Nat} {base : Step V} (hle : place ≤ p.tokens.size)
    (hbase : Matched p g [.nonTerminal (p.grammar.name i)] place base.next [base.value]) :
    Fails p g (p.Explains g)
      (p.grow recur place (p.grammar.rulesOf i true) fuel base) := by
  induction fuel generalizing base with
  | zero => exact .found base
  | succ fuel ih =>
    have hextends : ∀ step, some base = some step →
        Matched p g [.nonTerminal (p.grammar.name i)] place step.next [step.value] := by
      rintro _ ⟨⟩
      exact hbase
    exact .andElse (keeps_rules hp hkeeps (some base) hle hextends)
      (fails_choice hp hkeeps hrecur (some base) hle hextends) (fun step hstep => ih hstep)
      fun _ => .found base

theorem fails_expand {i place : Nat} {spec : NonTerminal}
    (hspec : p.grammar.nonTerminals[i]? = some spec) (hle : place ≤ p.tokens.size) :
    Fails p g (p.Explains g) (p.expand recur spec place) := by
  rw [expand_eq hp hspec]
  exact .andElse (keeps_rules hp hkeeps none hle nofun)
    (fails_choice hp hkeeps hrecur none hle nofun)
    (fun base hbase => fails_grow hp hkeeps hrecur hle hbase) fun _ => .missed

end

theorem fails_matchNonTerminal (hp : g.CompilesTo p.grammar) (depth : Nat) :
    RecursionFails p g (p.Explains g) (p.matchNonTerminal depth) := by
  induction depth with
  | zero => exact fun i place _ => .missed
  | succ depth ih =>
    intro i place hle st hst e he
    rw [matchNonTerminal_succ] at he
    cases hmemo : st.memo[(place, i)]? with
    | some answer =>
      rw [hmemo] at he
      cases answer <;> cases he
    | none =>
      rw [hmemo] at he
      cases hspec : p.grammar.nonTerminals[i]? with
      | none =>
        rw [hspec] at he
        cases he
      | some spec =>
        have hexpand := fails_expand hp (keeps_matchNonTerminal hp depth) ih hspec hle
          (st.enter place i) (hst.remember fun _ h => nomatch h)
        rw [hspec] at he
        dsimp only at he
        rcases hout : p.expand (p.matchNonTerminal depth) spec place (st.enter place i) with
          ⟨step | _ | e', st'⟩ <;> rw [hout] at he hexpand
        · cases he
        · cases he
        · exact hexpand e he

theorem explains_of_run (hp : g.CompilesTo p.grammar) {e : Error} (h : p.run.1 = .broken e) :
    p.Explains g e := by
  have empty : Sound p g {} := fun place i step hmemo => by simp at hmemo
  exact fails_matchNonTerminal hp p.depth p.grammar.start 0 (Nat.zero_le _) {} empty e h

end Problem

end Parser

end Packrat
