import Packrat.Proofs.Grammar.Derivation
import Packrat.Proofs.Parser.Attempt

/-! Every match has a derivation tree over the tokens that it covers, and its value is the value of
that tree. This needs nothing of the grammar but that it compiles: an answer kept while its
non-terminal is under way is a miss, which only hides matches. -/

namespace Packrat.Parser.Problem

variable {V α β : Type} [OfToken V] {p : Problem V} {g : Grammar V}

/-- The tokens from `start` up to `stop` derive from symbols one behind the other, each from one
token or more, and the symbols have the values. -/
structure Matched (p : Problem V) (g : Grammar V) (symbols : List Symbol) (start stop : Nat)
    (values : List V) : Prop where
  length_le : start + symbols.length ≤ stop
  le_size : stop ≤ p.tokens.size
  derived : ∃ trees, List.Forall₂ g.Derives symbols trees ∧
    Tree.allTokens trees = (p.tokens.extract start stop).toList ∧ Tree.allValues trees = .ok values

namespace Matched

theorem nil {place : Nat} (h : place ≤ p.tokens.size) : Matched p g [] place place [] where
  length_le := Nat.le_refl _
  le_size := h
  derived := ⟨[], .nil, by simp [Tree.allTokens], rfl⟩

theorem token {place : Nat} {t : Token} (ht : p.tokens[place]? = some t) :
    Matched p g [.terminal t.kind] place (place + 1) [ofToken t] := by
  obtain ⟨hlt, rfl⟩ := Array.getElem?_eq_some_iff.1 ht
  refine ⟨Nat.le_refl _, hlt, [.leaf p.tokens[place]], .cons (.leaf _) .nil, ?_, rfl⟩
  simp [Tree.allTokens, Tree.tokens, List.take_one, List.head?_drop, hlt]

theorem append {front behind : List Symbol} {start middle stop : Nat} {vs ws : List V}
    (hf : Matched p g front start middle vs) (hb : Matched p g behind middle stop ws) :
    Matched p g (front ++ behind) start stop (vs ++ ws) := by
  obtain ⟨ts, hts, htokens, hvalues⟩ := hf.derived
  obtain ⟨us, hus, hutokens, huvalues⟩ := hb.derived
  have hlt := hf.length_le
  have hlu := hb.length_le
  refine ⟨by rw [List.length_append]; omega, hb.le_size, ts ++ us, List.rel_append hts hus, ?_,
    Tree.allValues_append hvalues huvalues⟩
  rw [Tree.allTokens_append, htokens, hutokens, ← Array.toList_append, Array.extract_append_extract,
    Nat.min_eq_left (by omega), Nat.max_eq_right (by omega)]

theorem node {r : Rule V} {start stop : Nat} {values : List V} {v : V} (hr : r ∈ g.rules)
    (hne : r.rhs ≠ []) (h : Matched p g r.rhs start stop values)
    (hv : r.apply (p.tokens.extract start stop).toList values = .ok v) :
    Matched p g [.nonTerminal r.lhs] start stop [v] := by
  obtain ⟨trees, htrees, htokens, hvalues⟩ := h.derived
  have hlen := h.length_le
  have hpos := List.length_pos_iff.2 hne
  refine ⟨by rw [List.length_singleton]; omega, h.le_size, [.node r trees],
    .cons (.node hr htrees) .nil, ?_, ?_⟩
  · rw [Tree.allTokens, Tree.tokens, htokens, Tree.allTokens, List.append_nil]
  · have hnode : (Tree.node r trees).value = .ok v := by
      rw [Tree.value, hvalues]
      exact htokens ▸ hv
    rw [Tree.allValues, hnode]
    rfl

theorem length_values {symbols : List Symbol} {start stop : Nat} {values : List V}
    (h : Matched p g symbols start stop values) : values.length = symbols.length := by
  obtain ⟨trees, htrees, -, hvalues⟩ := h.derived
  rw [Tree.length_allValues hvalues, htrees.length_eq]

end Matched

def Sound (p : Problem V) (g : Grammar V) (st : State V) : Prop :=
  ∀ place i step, st.memo[(place, i)]? = some (some step) →
    Matched p g [.nonTerminal (p.grammar.name i)] place step.next [step.value]

def Keeps (p : Problem V) (g : Grammar V) (R : α → Prop) (x : Attempt V α) : Prop :=
  ∀ st, Sound p g st → Sound p g (x st).2 ∧ ∀ a, (x st).1 = .found a → R a

namespace Keeps

variable {R : α → Prop} {S : β → Prop}

theorem found {a : α} (ha : R a) : Keeps p g R (Attempt.found a) :=
  fun _ hst => ⟨hst, fun _ h => by cases h; exact ha⟩

theorem missed : Keeps p g R Attempt.missed := fun _ hst => ⟨hst, fun _ h => nomatch h⟩

theorem andElse {x : Attempt V α} {f : α → Attempt V β} {m : Attempt V β} (hx : Keeps p g R x)
    (hf : ∀ a, R a → Keeps p g S (f a)) (hm : Keeps p g S m) : Keeps p g S (x.andElse f m) := by
  intro st hst
  obtain ⟨hst', ha⟩ := hx st hst
  rcases hout : x st with ⟨a | _ | e, st'⟩ <;> rw [hout] at hst' ha
  · rw [Attempt.andElse_of_found hout]
    exact hf a (ha a rfl) st' hst'
  · rw [Attempt.andElse_of_missed hout]
    exact hm st' hst'
  · rw [Attempt.andElse_of_broken hout]
    exact ⟨hst', fun _ h => nomatch h⟩

end Keeps

theorem keeps_escalate {R : α → Prop} (rule : CompiledRule V) (soft : Bool) (slot : Slot)
    (place : Nat) : Keeps p g R (p.escalate rule soft slot place) := by
  intro st hst
  unfold escalate
  split
  · exact ⟨hst, fun _ h => nomatch h⟩
  · exact ⟨hst, fun _ h => nomatch h⟩

omit [OfToken V] in
theorem marker_eq_spanOf {start stop : Nat} (hlt : start < stop) (hle : stop ≤ p.tokens.size) :
    p.marker start stop = spanOf (p.tokens.extract start stop).toList := by
  have hfirst : p.tokenAt start = (p.tokens.extract start stop).toList.head? := by
    rw [tokenAt, Nat.min_eq_left (by omega), List.head?_eq_getElem?, Array.getElem?_toList,
      Array.getElem?_extract, if_pos (by omega), Nat.add_zero]
  have hlast : p.tokenAt (stop - 1) = (p.tokens.extract start stop).toList.getLast? := by
    rw [tokenAt, Nat.min_eq_left (by omega), List.getLast?_eq_getElem?, Array.getElem?_toList,
      Array.length_toList, Array.size_extract, Array.getElem?_extract, if_pos (by omega)]
    congr 1
    omega
  unfold marker spanOf
  rw [hfirst, hlast]
  cases (p.tokens.extract start stop).toList.head? with
  | none => rfl
  | some first =>
    cases (p.tokens.extract start stop).toList.getLast? with
    | none => rfl
    | some last => exact if_pos hlt

omit [OfToken V] in
theorem context_eq {r : Rule V} {i start stop : Nat} (hname : p.grammar.name i = r.lhs)
    (hlt : start < stop) (hle : stop ≤ p.tokens.size) :
    p.context i start stop = r.context (p.tokens.extract start stop).toList := by
  unfold context Rule.context
  rw [hname, marker_eq_spanOf hlt hle]

theorem keeps_reduce {r : Rule V} {cr : CompiledRule V} (hcr : Grammar.RuleCompiles g.names r cr)
    (hname : p.grammar.name cr.lhs = r.lhs) (hr : r ∈ g.rules) {start stop : Nat}
    {values : List V} (h : Matched p g r.rhs start stop values) :
    Keeps p g (fun step => Matched p g [.nonTerminal r.lhs] start step.next [step.value])
      (p.reduce cr start stop values) := by
  have hlen := h.length_le
  have hpos := List.length_pos_iff.2 hcr.rhs_ne_nil
  have hcontext : p.context cr.lhs start stop = _ := context_eq hname (by omega) h.le_size
  intro st hst
  unfold reduce
  cases hreducer : cr.reducer with
  | some f =>
    have happly := Rule.apply_of_reducer (hcr.reducer ▸ hreducer)
      (p.tokens.extract start stop).toList values
    rw [← hcontext] at happly
    dsimp only
    cases hf : f (p.context cr.lhs start stop) values with
    | ok v => exact ⟨hst, fun _ ha => by cases ha; exact h.node hr hcr.rhs_ne_nil (happly.trans hf)⟩
    | error e => exact ⟨hst, fun _ ha => nomatch ha⟩
  | none =>
    -- A rule without a reducer has one symbol, so there is one value.
    have hnone : r.reducer = none := hcr.reducer ▸ hreducer
    have hone : values.length = 1 := by
      rw [h.length_values]
      exact Nat.le_antisymm (hcr.length_le_one hnone) hpos
    obtain ⟨v, rfl⟩ := List.length_eq_one_iff.1 hone
    refine ⟨hst, fun _ ha => ?_⟩
    cases ha
    exact h.node hr hcr.rhs_ne_nil (Rule.apply_singleton hnone _ v)

section

variable {recur : Recursion V}

def RecursionKeeps (p : Problem V) (g : Grammar V) (recur : Recursion V) : Prop :=
  ∀ i place, place ≤ p.tokens.size →
    Keeps p g
      (fun step => Matched p g [.nonTerminal (p.grammar.name i)] place step.next [step.value])
      (recur i place)

theorem keeps_matchSlot (hp : g.CompilesTo p.grammar) (hrecur : RecursionKeeps p g recur)
    {s : Symbol} {slot : Slot} (hs : Grammar.Resolves g.names s slot) {place : Nat}
    (hle : place ≤ p.tokens.size) :
    Keeps p g (fun step => Matched p g [s] place step.next [step.value])
      (p.matchSlot recur slot place) := by
  cases hs with
  | nonTerminal hname => exact hp.name_eq hname ▸ hrecur _ place hle
  | terminal kind =>
    intro st hst
    unfold matchSlot
    cases ht : p.tokens[place]? with
    | none => exact ⟨hst, fun _ h => nomatch h⟩
    | some t =>
      dsimp only
      split
      · next hkind =>
        subst hkind
        exact ⟨hst, fun _ h => by cases h; exact .token ht⟩
      · exact ⟨hst, fun _ h => nomatch h⟩

theorem keeps_sequence (hp : g.CompilesTo p.grammar) (hrecur : RecursionKeeps p g recur)
    (rule : CompiledRule V) (soft : Bool) {symbols : List Symbol} {slots : List Slot}
    (h : List.Forall₂ (Grammar.Resolves g.names) symbols slots) {place : Nat}
    (hle : place ≤ p.tokens.size) :
    Keeps p g (fun x => Matched p g symbols place x.2 x.1)
      (p.sequence recur rule soft slots place) := by
  induction h generalizing soft place with
  | nil => exact .found (.nil hle)
  | cons hs _ ih =>
    refine (keeps_matchSlot hp hrecur hs hle).andElse ?_ (keeps_escalate rule soft _ place)
    rintro step hstep
    refine (ih false hstep.le_size).andElse ?_ .missed
    rintro x hx
    exact .found (hstep.append hx)

theorem keeps_choice (hp : g.CompilesTo p.grammar) (hrecur : RecursionKeeps p g recur) {i : Nat}
    {place : Nat} {base : Option (Step V)} {front : List Symbol} {rules : List (CompiledRule V)}
    (hbase : Matched p g front place (startBehind base place) (base.map (·.value)).toList)
    (hrules : ∀ cr ∈ rules, cr.lhs = i ∧ ∃ r ∈ g.rules, Grammar.RuleCompiles g.names r cr ∧
      ∃ behind, r.rhs = front ++ behind ∧
        List.Forall₂ (Grammar.Resolves g.names) behind (slotsBehind base cr)) :
    Keeps p g
      (fun step => Matched p g [.nonTerminal (p.grammar.name i)] place step.next [step.value])
      (p.choice recur place base rules) := by
  induction rules with
  | nil => exact .missed
  | cons cr rest ih =>
    obtain ⟨rfl, r, hr, hcr, behind, hrhs, hbehind⟩ := hrules cr List.mem_cons_self
    refine (keeps_sequence hp hrecur cr _ hbehind hbase.le_size).andElse ?_
      (ih fun cr h => hrules cr (List.mem_cons_of_mem _ h))
    rintro x hx
    have hname := hp.name_eq hcr.lhs
    rw [hname]
    exact keeps_reduce hcr hname hr (hrhs ▸ hbase.append hx)

omit [OfToken V] in
theorem exists_behind_of_mem_rulesOf (hp : g.CompilesTo p.grammar) {i : Nat}
    {base : Option (Step V)} {cr : CompiledRule V} (h : cr ∈ p.grammar.rulesOf i base.isSome) :
    cr.lhs = i ∧ ∃ r ∈ g.rules, Grammar.RuleCompiles g.names r cr ∧
      r.isLeftRecursive = base.isSome ∧ ∃ behind,
        r.rhs = (base.map fun _ => Symbol.nonTerminal (p.grammar.name i)).toList ++ behind ∧
          List.Forall₂ (Grammar.Resolves g.names) behind (slotsBehind base cr) := by
  obtain ⟨hmem, rfl, hrec⟩ := Grammar.CompilesTo.mem_rulesOf.1 h
  obtain ⟨r, hr, hcr⟩ := hp.exists_rule hmem
  rw [← hcr.isLeftRecursive_eq g.names_nodup] at hrec
  refine ⟨rfl, r, hr, hcr, hrec, ?_⟩
  cases base with
  | none => exact ⟨r.rhs, rfl, hcr.rhs⟩
  | some base =>
    obtain ⟨behind, hrhs⟩ := List.head?_eq_some_iff.1 (beq_iff_eq.1 hrec)
    have hslots := hcr.rhs
    rw [hrhs] at hslots
    obtain ⟨slot, slots, -, hbehind, hcrhs⟩ := List.forall₂_cons_left_iff.1 hslots
    refine ⟨behind, by rw [hp.name_eq hcr.lhs]; exact hrhs, ?_⟩
    unfold slotsBehind
    rw [hcrhs]
    exact hbehind

theorem matched_base {i place : Nat} {base : Option (Step V)} (hle : place ≤ p.tokens.size)
    (h : ∀ step, base = some step →
      Matched p g [.nonTerminal (p.grammar.name i)] place step.next [step.value]) :
    Matched p g (base.map fun _ => Symbol.nonTerminal (p.grammar.name i)).toList place
      (startBehind base place) (base.map (·.value)).toList := by
  cases base with
  | none => exact .nil hle
  | some step => exact h step rfl

theorem keeps_rules (hp : g.CompilesTo p.grammar) (hrecur : RecursionKeeps p g recur)
    {i place : Nat} (base : Option (Step V)) (hle : place ≤ p.tokens.size)
    (hbase : ∀ step, base = some step →
      Matched p g [.nonTerminal (p.grammar.name i)] place step.next [step.value]) :
    Keeps p g
      (fun step => Matched p g [.nonTerminal (p.grammar.name i)] place step.next [step.value])
      (p.choice recur place base (p.grammar.rulesOf i base.isSome)) := by
  apply keeps_choice hp hrecur (matched_base hle hbase)
  intro cr h
  obtain ⟨hlhs, r, hr, hcr, -, hbehind⟩ := exists_behind_of_mem_rulesOf hp h
  exact ⟨hlhs, r, hr, hcr, hbehind⟩

theorem keeps_grow (hp : g.CompilesTo p.grammar) (hrecur : RecursionKeeps p g recur)
    {i place fuel : Nat} {base : Step V}
    (hbase : Matched p g [.nonTerminal (p.grammar.name i)] place base.next [base.value]) :
    Keeps p g
      (fun step => Matched p g [.nonTerminal (p.grammar.name i)] place step.next [step.value])
      (p.grow recur place (p.grammar.rulesOf i true) fuel base) := by
  induction fuel generalizing base with
  | zero => exact .found hbase
  | succ fuel ih =>
    have hle : place ≤ p.tokens.size :=
      Nat.le_trans (Nat.le_of_add_right_le hbase.length_le) hbase.le_size
    have hextend := keeps_rules hp hrecur (some base) hle fun step h => by
      cases h
      exact hbase
    exact hextend.andElse (fun step hstep => ih hstep) (.found hbase)

theorem keeps_expand (hp : g.CompilesTo p.grammar) (hrecur : RecursionKeeps p g recur)
    {i place : Nat} {spec : NonTerminal} (hspec : p.grammar.nonTerminals[i]? = some spec)
    (hle : place ≤ p.tokens.size) :
    Keeps p g
      (fun step => Matched p g [.nonTerminal (p.grammar.name i)] place step.next [step.value])
      (p.expand recur spec place) := by
  rw [expand_eq hp hspec]
  have hordinary := keeps_rules (i := i) hp hrecur none hle nofun
  exact hordinary.andElse (fun base hbase => keeps_grow hp hrecur hbase) .missed

end

theorem Sound.remember {st : State V} (hst : Sound p g st) {place i : Nat}
    {answer : Option (Step V)}
    (h : ∀ step, answer = some step →
      Matched p g [.nonTerminal (p.grammar.name i)] place step.next [step.value]) :
    Sound p g (st.remember place i answer) := by
  intro q j step hmemo
  obtain ⟨rfl, rfl, hanswer⟩ | hbefore := State.kept_remember hmemo
  · exact h step hanswer
  · exact hst q j step hbefore

theorem keeps_matchNonTerminal (hp : g.CompilesTo p.grammar) (depth : Nat) :
    RecursionKeeps p g (p.matchNonTerminal depth) := by
  induction depth with
  | zero => exact fun i place _ st hst => ⟨hst, fun _ h => nomatch h⟩
  | succ depth ih =>
    intro i place hle st hst
    rw [matchNonTerminal_succ]
    cases hmemo : st.memo[(place, i)]? with
    | some answer =>
      refine ⟨hst, fun step h => hst place i step ?_⟩
      cases answer with
      | none => cases h
      | some a =>
        cases h
        exact hmemo
    | none =>
      cases hspec : p.grammar.nonTerminals[i]? with
      | none => exact ⟨hst, fun _ h => nomatch h⟩
      | some spec =>
        have hmiss {st : State V} (h : Sound p g st) : Sound p g (st.remember place i none) :=
          h.remember fun _ h => nomatch h
        obtain ⟨hst', hfound⟩ := keeps_expand hp ih hspec hle (st.enter place i) (hmiss hst)
        dsimp only
        rcases hout : p.expand (p.matchNonTerminal depth) spec place (st.enter place i) with
          ⟨step | _ | e, st'⟩ <;> rw [hout] at hst' hfound
        · refine ⟨hst'.remember ?_, fun _ h => hfound _ h⟩
          rintro _ ⟨⟩
          exact hfound step rfl
        · exact ⟨hmiss hst', fun _ h => nomatch h⟩
        · exact ⟨hst', fun _ h => nomatch h⟩

/-- A parse that finds a value has a derivation tree of the start symbol over the tokens up to its
end, and the value is that of the tree. -/
theorem exists_tree_of_run {lexer : Lexer} (hp : g.compile lexer = .ok p.grammar) {step : Step V}
    (h : p.run.1 = .found step) :
    step.next ≤ p.tokens.size ∧
      ∃ tree, g.Derives (.nonTerminal g.start) tree ∧
        tree.tokens = (p.tokens.extract 0 step.next).toList ∧ tree.value = .ok step.value := by
  have hp := Grammar.compilesTo_of_compile hp
  have empty : Sound p g {} := fun place i step hmemo => by simp at hmemo
  have matched := (keeps_matchNonTerminal hp p.depth p.grammar.start 0 (Nat.zero_le _) {} empty).2 step h
  refine ⟨matched.le_size, ?_⟩
  obtain ⟨trees, htrees, htokens, hvalues⟩ := matched.derived
  rw [hp.name_eq hp.start] at htrees
  obtain ⟨tree, rest, htree, hrest, rfl⟩ := List.forall₂_cons_left_iff.1 htrees
  cases hrest
  rw [Tree.allTokens, Tree.allTokens, List.append_nil] at htokens
  rw [Tree.allValues] at hvalues
  obtain ⟨v, hv, hvalues⟩ := bind_eq_ok.1 hvalues
  obtain ⟨vs, hvs, hvalues⟩ := bind_eq_ok.1 hvalues
  cases hvalues
  exact ⟨tree, htree, htokens, hv⟩

def joined : Grammar Token where
  start := "joined"
  rules := [
    { lhs := "joined"
      rhs := [.nonTerminal "joined", .terminal .name]
      reducer := some fun context values =>
        pure ⟨context.marker, .name, values.head?.bind (·.payload)⟩ },
    { lhs := "joined", rhs := [.terminal .name] }]

theorem exists_tree_of_run_joined :
    ∃ (lexer : Lexer) (p : Problem Token) (step : Step Token),
      joined.compile lexer = .ok p.grammar ∧ p.run.1 = .found step ∧
        step.value = ⟨.span "words" 0 5 1, .name, some (.text "a")⟩ ∧
        step.next ≤ p.tokens.size ∧
          ∃ tree, joined.Derives (.nonTerminal joined.start) tree ∧
            tree.tokens = (p.tokens.extract 0 step.next).toList ∧ tree.value = .ok step.value := by
  obtain ⟨c, hc, step, hrun, hvalue⟩ : ∃ c, joined.compile {
        specs := [], pattern := .empty, groups := [], keywords := [], newlines := .keep
        kinds := Kind.categories } = .ok c ∧
      ∃ step, (Problem.mk c #[
        ⟨.span "words" 0 1 1, .name, some (.text "a")⟩,
        ⟨.span "words" 2 3 1, .name, some (.text "b")⟩,
        ⟨.span "words" 4 5 1, .name, some (.text "c")⟩]).run.1 = .found step ∧
          step.value = ⟨.span "words" 0 5 1, .name, some (.text "a")⟩ := by
    refine ⟨_, rfl, ⟨⟨.span "words" 0 5 1, .name, some (.text "a")⟩, 3⟩, ?_, rfl⟩
    unfold run
    rw [show depth _ = 4 + 1 from rfl, matchNonTerminal_succ, Std.HashMap.getElem?_empty]
    rfl
  exact ⟨_, ⟨c, _⟩, step, hc, hrun, hvalue, exists_tree_of_run (p := ⟨c, _⟩) hc hrun⟩

end Packrat.Parser.Problem
