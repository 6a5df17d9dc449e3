import Packrat.Proofs.Grammar.FirstSymbols
import Packrat.Proofs.Parser.Unmemoised

/-! Keeping answers does not change them. Where direct left recursion is the only one, the matcher
comes to the same answer as a matcher without memory, and to the same last missed place. -/

namespace Packrat.Parser

variable {V α β : Type}

namespace Problem

variable [OfToken V] {p : Problem V} {g : Grammar V}

/-- A measure of a non-terminal at a place. It falls whenever matching goes down to another one:
to a later place, or to a first symbol at the same place. -/
noncomputable def level (p : Problem V) (g : Grammar V) (place i : Nat) : Nat :=
  (p.tokens.size - place) * p.grammar.nonTerminals.size + g.rank (p.grammar.name i)

omit [OfToken V] in
theorem level_lt_level_of_lt (hp : g.CompilesTo p.grammar) (hg : g.Acyclic) {place later i j : Nat}
    (hj : j < p.grammar.nonTerminals.size) (hlt : place < later) (hle : later ≤ p.tokens.size) :
    level p g later j < level p g place i := by
  have hrank := hp.rank_name_lt_size hg hj
  have hmul : (p.tokens.size - later + 1) * p.grammar.nonTerminals.size ≤
      (p.tokens.size - place) * p.grammar.nonTerminals.size :=
    Nat.mul_le_mul_right _ (by omega)
  rw [Nat.add_mul, Nat.one_mul] at hmul
  unfold level
  omega

omit [OfToken V] in
theorem level_lt_depth (hp : g.CompilesTo p.grammar) (hg : g.Acyclic) (place : Nat) {i : Nat}
    (hi : i < p.grammar.nonTerminals.size) : level p g place i < p.depth := by
  have hrank := hp.rank_name_lt_size hg hi
  have hmul : (p.tokens.size - place) * p.grammar.nonTerminals.size ≤
      p.tokens.size * p.grammar.nonTerminals.size := Nat.mul_le_mul_right _ (Nat.sub_le _ _)
  unfold level depth
  rw [Nat.add_mul, Nat.one_mul]
  omega

/-- A non-terminal that is asked for in matching some slots from a place on lies below a level: it is
the first one at that place, or it comes at a later one. -/
structure SlotsBelow (p : Problem V) (g : Grammar V) (bound place : Nat) (slots : List Slot) :
    Prop where
  lt_size (j : Nat) : .nonTerminal j ∈ slots → j < p.grammar.nonTerminals.size
  first (j : Nat) : slots.head? = some (.nonTerminal j) → level p g place j < bound
  later (j later : Nat) : j < p.grammar.nonTerminals.size → place < later →
    later ≤ p.tokens.size → level p g later j < bound

namespace SlotsBelow

variable {bound place : Nat} {slot : Slot} {rest : List Slot}

omit [OfToken V]

theorem head (h : SlotsBelow p g bound place (slot :: rest)) (j : Nat)
    (hslot : slot = .nonTerminal j) :
    j < p.grammar.nonTerminals.size ∧ level p g place j < bound := by
  subst hslot
  exact ⟨h.lt_size j List.mem_cons_self, h.first j rfl⟩

theorem tail (h : SlotsBelow p g bound place (slot :: rest)) {next : Nat} (hlt : place < next)
    (hle : next ≤ p.tokens.size) : SlotsBelow p g bound next rest where
  lt_size j hj := h.lt_size j (List.mem_cons_of_mem _ hj)
  first j hj := h.later j next (h.lt_size j (List.mem_cons_of_mem _ (List.mem_of_head? hj))) hlt hle
  later j later hj hlater := h.later j later hj (hlt.trans hlater)

variable {i : Nat} {rule : CompiledRule V} (hp : g.CompilesTo p.grammar) (hg : g.Acyclic)

include hp hg

theorem of_ordinary (place : Nat) (h : rule ∈ p.grammar.rulesOf i false) :
    SlotsBelow p g (level p g place i) place rule.rhs where
  lt_size _ hj := hp.slot_lt_size (Grammar.CompilesTo.mem_rulesOf.1 h).1 hj
  first _ hj := Nat.add_lt_add_left (hp.rank_name_lt hg h hj) _
  later _ _ hj hlt hle := level_lt_level_of_lt hp hg hj hlt hle

theorem of_leftRecursive {next : Nat} (hlt : place < next) (hle : next ≤ p.tokens.size)
    (h : rule ∈ p.grammar.rulesOf i true) :
    SlotsBelow p g (level p g place i) next rule.rhs.tail := by
  have hsize : ∀ j, .nonTerminal j ∈ rule.rhs.tail → j < p.grammar.nonTerminals.size := fun j hj =>
    hp.slot_lt_size (Grammar.CompilesTo.mem_rulesOf.1 h).1 (List.mem_of_mem_tail hj)
  exact {
    lt_size := hsize
    first := fun j hj =>
      level_lt_level_of_lt hp hg (hsize j (List.mem_of_head? hj)) hlt hle
    later := fun j later hj hlater hle' => level_lt_level_of_lt hp hg hj (hlt.trans hlater) hle' }

end SlotsBelow

structure Recorded (p : Problem V) (g : Grammar V) (furthest place i : Nat)
    (answer : Option (Step V)) : Prop where
  unmemoised (rounds : Nat) : level p g place i < rounds →
    ∃ reach ≤ furthest, ∀ other,
      p.unmemoised rounds i place other = some (.ofOption answer, max other reach)
  advances (step : Step V) : answer = some step → place < step.next ∧ step.next ≤ p.tokens.size

/-- Every answer kept below a level is right. What is under way at that level or above is not
looked at from below, so its entries may be anything. -/
def Faithful (p : Problem V) (g : Grammar V) (bound : Nat) (st : State V) : Prop :=
  ∀ place i answer, level p g place i < bound → st.memo[(place, i)]? = some answer →
    Recorded p g st.furthest place i answer

/-- What an attempt came to from a state on is what a trial came to, and it has changed nothing
but the answers below a level. -/
structure Tracks (p : Problem V) (g : Grammar V) (bound : Nat) (R : α → Prop) (st : State V)
    (out : Answer α × State V) (trial : Option (Answer α × Nat)) : Prop where
  agrees : trial = some (out.1, out.2.furthest)
  furthest_le : st.furthest ≤ out.2.furthest
  outside (place i : Nat) : bound ≤ level p g place i →
    out.2.memo[(place, i)]? = st.memo[(place, i)]?
  faithful : (∀ e, out.1 ≠ .broken e) → Faithful p g bound out.2
  found (a : α) : out.1 = .found a → R a

def Follows (p : Problem V) (g : Grammar V) (bound : Nat) (R : α → Prop) (x : Attempt V α)
    (y : Trial α) : Prop :=
  ∀ st, Faithful p g bound st → Tracks p g bound R st (x st) (y st.furthest)

theorem Recorded.mono {furthest furthest' place i : Nat} {answer : Option (Step V)}
    (h : Recorded p g furthest place i answer) (hle : furthest ≤ furthest') :
    Recorded p g furthest' place i answer where
  unmemoised rounds hrounds := by
    obtain ⟨reach, hreach, heq⟩ := h.unmemoised rounds hrounds
    exact ⟨reach, hreach.trans hle, heq⟩
  advances := h.advances

theorem Faithful.of_memo_eq {bound : Nat} {st st' : State V} (h : Faithful p g bound st)
    (hmemo : st'.memo = st.memo) (hle : st.furthest ≤ st'.furthest) : Faithful p g bound st' :=
  fun place i answer hlt hst => (h place i answer hlt (hmemo ▸ hst)).mono hle

theorem Faithful.anti {bound bound' : Nat} {st : State V} (h : Faithful p g bound st)
    (hle : bound' ≤ bound) : Faithful p g bound' st :=
  fun place i answer hlt => h place i answer (hlt.trans_le hle)

theorem Tracks.still {bound : Nat} {R : α → Prop} {st st' : State V} {a : Answer α}
    (hst : Faithful p g bound st) (hmemo : st'.memo = st.memo) (hle : st.furthest ≤ st'.furthest)
    (ha : ∀ b, a = .found b → R b) : Tracks p g bound R st (a, st') (some (a, st'.furthest)) where
  agrees := rfl
  furthest_le := hle
  outside _ _ _ := by rw [hmemo]
  faithful _ := hst.of_memo_eq hmemo hle
  found := ha

namespace Follows

variable {bound : Nat} {R : α → Prop} {S : β → Prop}

theorem found {a : α} (ha : R a) : Follows p g bound R (Attempt.found a) (Trial.found a) :=
  fun _ hst => .still hst rfl (Nat.le_refl _) fun _ h => by cases h; exact ha

theorem missed : Follows p g bound R Attempt.missed Trial.missed :=
  fun _ hst => .still hst rfl (Nat.le_refl _) fun _ h => by cases h

theorem mono {x : Attempt V α} {y : Trial α} {R' : α → Prop} (h : Follows p g bound R x y)
    (hR : ∀ a, R a → R' a) : Follows p g bound R' x y :=
  fun st hst => { h st hst with found := fun a ha => hR a ((h st hst).found a ha) }

theorem andElse {x : Attempt V α} {y : Trial α} {f : α → Attempt V β} {f' : α → Trial β}
    {m : Attempt V β} {m' : Trial β} (hx : Follows p g bound R x y)
    (hf : ∀ a, R a → Follows p g bound S (f a) (f' a)) (hm : Follows p g bound S m m') :
    Follows p g bound S (x.andElse f m) (y.andElse f' m') := by
  intro st hst
  have first := hx st hst
  -- Both ways to go on start where `x` has ended.
  have goOn {z : Attempt V β} {w : Trial β} (hzw : Follows p g bound S z w)
      (hbroken : ∀ e, (x st).1 ≠ .broken e) :
      Tracks p g bound S st (z (x st).2) (w (x st).2.furthest) := by
    have second := hzw (x st).2 (first.faithful hbroken)
    exact {
      agrees := second.agrees
      furthest_le := first.furthest_le.trans second.furthest_le
      outside := fun place i h => (second.outside place i h).trans (first.outside place i h)
      faithful := second.faithful
      found := second.found }
  rcases hout : x st with ⟨a | _ | e, st'⟩
  · have := goOn (hf a (first.found a (by rw [hout]))) (by simp [hout])
    simpa only [Attempt.andElse, Trial.andElse, first.agrees, hout] using this
  · have := goOn hm (by simp [hout])
    simpa only [Attempt.andElse, Trial.andElse, first.agrees, hout] using this
  · simp only [Attempt.andElse, Trial.andElse, first.agrees, hout]
    exact {
      agrees := rfl
      furthest_le := by simpa only [hout] using first.furthest_le
      outside := by simpa only [hout] using first.outside
      faithful := fun h => absurd rfl (h e)
      found := fun b hb => by cases hb }

end Follows

variable {bound : Nat}

def Advances (p : Problem V) (place : Nat) (step : Step V) : Prop :=
  place < step.next ∧ step.next ≤ p.tokens.size

theorem follows_escalate {R : α → Prop} (rule : CompiledRule V) (soft : Bool) (slot : Slot)
    (place : Nat) :
    Follows p g bound R (p.escalate rule soft slot place)
      (if rule.failHard && !soft then .broken (p.required rule slot place) else .missed) := by
  intro st hst
  unfold escalate
  split
  · exact .still hst rfl (Nat.le_refl _) fun _ h => by cases h
  · exact .still hst rfl (Nat.le_refl _) fun _ h => by cases h

theorem follows_reduce (rule : CompiledRule V) (start stop : Nat) (values : List V) :
    Follows p g bound (fun step => step.next = stop) (p.reduce rule start stop values)
      (p.tryReduce rule start stop values) := by
  intro st hst
  unfold reduce tryReduce
  cases rule.reducer with
  | some f =>
    cases hf : f (p.context rule.lhs start stop) values with
    | ok v =>
      simp only [hf]
      exact .still hst rfl (Nat.le_refl _) fun _ h => by cases h; rfl
    | error e =>
      simp only [hf]
      exact .still hst rfl (Nat.le_refl _) fun _ h => by cases h
  | none =>
    cases values.getLast? with
    | some v => exact .still hst rfl (Nat.le_refl _) fun _ h => by cases h; rfl
    | none => exact .still hst rfl (Nat.le_refl _) fun _ h => by cases h

section

variable {recur : Recursion V} {recur' : Nat → Nat → Trial (Step V)}

def RecursionFollows (p : Problem V) (g : Grammar V) (bound : Nat) (recur : Recursion V)
    (recur' : Nat → Nat → Trial (Step V)) : Prop :=
  ∀ i place, i < p.grammar.nonTerminals.size → place ≤ p.tokens.size → level p g place i < bound →
    Follows p g bound (Advances p place) (recur i place) (recur' i place)

theorem follows_matchSlot (hrecur : RecursionFollows p g bound recur recur') {slot : Slot}
    {place : Nat} (hle : place ≤ p.tokens.size)
    (hslot : ∀ j, slot = .nonTerminal j →
      j < p.grammar.nonTerminals.size ∧ level p g place j < bound) :
    Follows p g bound (Advances p place) (p.matchSlot recur slot place)
      (p.trySlot recur' slot place) := by
  cases slot with
  | nonTerminal j => exact hrecur j place (hslot j rfl).1 hle (hslot j rfl).2
  | terminal kind =>
    intro st hst
    unfold matchSlot trySlot
    cases ht : p.tokens[place]? with
    | none => exact .still hst rfl (Nat.le_max_left _ _) fun _ h => by cases h
    | some t =>
      have hlt : place < p.tokens.size := (Array.getElem?_eq_some_iff.1 ht).1
      dsimp only
      split
      · exact .still hst rfl (Nat.le_refl _) fun _ h => by
          cases h
          exact ⟨Nat.lt_succ_self _, hlt⟩
      · exact .still hst rfl (Nat.le_max_left _ _) fun _ h => by cases h

theorem follows_sequence (hrecur : RecursionFollows p g bound recur recur')
    (rule : CompiledRule V) (soft : Bool) {slots : List Slot} {place : Nat}
    (hle : place ≤ p.tokens.size) (hslots : SlotsBelow p g bound place slots) :
    Follows p g bound (fun x => place + slots.length ≤ x.2 ∧ x.2 ≤ p.tokens.size)
      (p.sequence recur rule soft slots place) (p.trySequence recur' rule soft slots place) := by
  induction slots generalizing soft place with
  | nil => exact .found ⟨Nat.le_refl _, hle⟩
  | cons slot rest ih =>
    refine (follows_matchSlot hrecur hle hslots.head).andElse ?_
      (follows_escalate rule soft slot place)
    rintro step ⟨hlt, hnext⟩
    refine (ih false hnext (hslots.tail hlt hnext)).andElse ?_ .missed
    rintro x ⟨hlen, hx⟩
    refine .found ⟨?_, hx⟩
    rw [List.length_cons]
    omega

theorem follows_choice (hrecur : RecursionFollows p g bound recur recur') (place : Nat)
    (base : Option (Step V)) {rules : List (CompiledRule V)}
    (hle : startBehind base place ≤ p.tokens.size)
    (hne : ∀ rule ∈ rules, slotsBehind base rule ≠ [])
    (hslots : ∀ rule ∈ rules, SlotsBelow p g bound (startBehind base place) (slotsBehind base rule)) :
    Follows p g bound (Advances p (startBehind base place)) (p.choice recur place base rules)
      (p.tryChoice recur' place base rules) := by
  induction rules with
  | nil => exact .missed
  | cons rule rest ih =>
    rw [List.forall_mem_cons] at hne hslots
    refine (follows_sequence hrecur rule base.isSome hle hslots.1).andElse ?_ (ih hne.2 hslots.2)
    rintro ⟨values, next⟩ ⟨hlen, hnext⟩
    refine (follows_reduce rule place next _).mono ?_
    rintro step rfl
    have := List.length_pos_iff.2 hne.1
    exact ⟨by dsimp only at hlen; omega, hnext⟩

variable (hp : g.CompilesTo p.grammar) (hg : g.Acyclic) {i place : Nat}

include hp hg

theorem follows_ordinary
    (hrecur : RecursionFollows p g (level p g place i) recur recur') (hle : place ≤ p.tokens.size) :
    Follows p g (level p g place i) (Advances p place)
      (p.choice recur place none (p.grammar.rulesOf i false))
      (p.tryChoice recur' place none (p.grammar.rulesOf i false)) :=
  follows_choice hrecur place none hle
    (fun _ h => hp.rhs_ne_nil (Grammar.CompilesTo.mem_rulesOf.1 h).1)
    fun _ h => .of_ordinary hp hg place h

theorem follows_extension
    (hrecur : RecursionFollows p g (level p g place i) recur recur') {base : Step V}
    (hbase : Advances p place base) :
    Follows p g (level p g place i) (Advances p base.next)
      (p.choice recur place (some base) (p.grammar.rulesOf i true))
      (p.tryChoice recur' place (some base) (p.grammar.rulesOf i true)) := by
  refine follows_choice hrecur place (some base) hbase.2 (fun rule h => ?_)
    fun _ h => .of_leftRecursive hp hg hbase.1 hbase.2 h
  have hmem := Grammar.CompilesTo.mem_rulesOf.1 h
  exact hp.tail_ne_nil hmem.1 hmem.2.2

theorem follows_grow
    (hrecur : RecursionFollows p g (level p g place i) recur recur') {base : Step V}
    (hbase : Advances p place base) {fuel rounds : Nat} (hfuel : p.tokens.size < fuel + base.next)
    (hrounds : p.tokens.size < rounds + base.next) :
    Follows p g (level p g place i) (Advances p place)
      (p.grow recur place (p.grammar.rulesOf i true) fuel base)
      (p.tryGrow recur' place (p.grammar.rulesOf i true) rounds base) := by
  -- Every extension takes a token, so neither side runs out of rounds.
  induction fuel generalizing base rounds with
  | zero => exact absurd hbase.2 (by omega)
  | succ fuel ih =>
    cases rounds with
    | zero => exact absurd hbase.2 (by omega)
    | succ rounds =>
      refine (follows_extension hp hg hrecur hbase).andElse ?_ (.found hbase)
      rintro step ⟨hlt, hle⟩
      exact ih ⟨hbase.1.trans hlt, hle⟩ (by omega) (by omega)

theorem follows_expand {rounds : Nat} {spec : NonTerminal}
    (hrecur : RecursionFollows p g (level p g place i) recur (p.unmemoised rounds))
    (hle : place ≤ p.tokens.size) (hspec : p.grammar.nonTerminals[i]? = some spec)
    (hrounds : level p g place i ≤ rounds) :
    Follows p g (level p g place i) (Advances p place) (p.expand recur spec place)
      (p.unmemoised (rounds + 1) i place) := by
  rw [expand_eq hp hspec]
  refine (follows_ordinary hp hg hrecur hle).andElse ?_ .missed
  rintro base hbase
  have hpos : 0 < p.grammar.nonTerminals.size :=
    Nat.zero_lt_of_lt (Array.getElem?_eq_some_iff.1 hspec).1
  have : p.tokens.size - place ≤ level p g place i :=
    (Nat.le_mul_of_pos_right _ hpos).trans (Nat.le_add_right _ _)
  have hlt := hbase.1
  have hnext := hbase.2
  exact follows_grow hp hg hrecur hbase (by omega) (by omega)

end

theorem Faithful.enter {st : State V} {place i : Nat}
    (hst : Faithful p g (level p g place i) st) :
    Faithful p g (level p g place i) (st.enter place i) := by
  -- The entry of a non-terminal under way lies at its level, so nothing below looks at it.
  intro q j answer hlt hmemo
  rw [State.getElem?_memo_enter, if_neg] at hmemo
  · exact hst q j answer hlt hmemo
  · rintro ⟨rfl, rfl⟩
    exact hlt.false

theorem Tracks.remember {st st' : State V} {place i : Nat} (answer : Option (Step V))
    (hst : Faithful p g bound st) (hlt : level p g place i < bound)
    (hout : ∀ rounds, level p g place i < rounds →
      Tracks p g (level p g place i) (Advances p place) (st.enter place i)
        (.ofOption answer, st') (p.unmemoised rounds i place st.furthest))
    {rounds : Nat} (hrounds : level p g place i < rounds) :
    Tracks p g bound (Advances p place) st (.ofOption answer, st'.remember place i answer)
      (p.unmemoised rounds i place st.furthest) := by
  have out := hout rounds hrounds
  have hbroken : ∀ e, Answer.ofOption answer ≠ .broken e := by cases answer <;> simp [Answer.ofOption]
  have hle : st.furthest ≤ st'.furthest := out.furthest_le
  exact {
    agrees := out.agrees
    furthest_le := hle
    outside := fun q j hq => by
      have hne : ¬(q = place ∧ j = i) := by
        rintro ⟨rfl, rfl⟩
        omega
      rw [State.getElem?_memo_remember, if_neg hne, out.outside q j (by omega),
        State.getElem?_memo_enter, if_neg hne]
    faithful := fun _ q j a hq hmemo => by
      rw [State.getElem?_memo_remember] at hmemo
      split at hmemo
      · next heq =>
        obtain ⟨rfl, rfl⟩ := heq
        cases hmemo
        exact {
          unmemoised := fun rounds h =>
            have ⟨reach, hreach, heq⟩ := uniform_unmemoised rounds j q _ _ _ (hout rounds h).agrees hbroken
            ⟨reach, hreach, heq⟩
          advances := fun step h => out.found step (by rw [h]; rfl) }
      · next hne =>
        by_cases hbelow : level p g q j < level p g place i
        · exact out.faithful hbroken q j a hbelow hmemo
        · rw [out.outside q j (by omega), State.getElem?_memo_enter, if_neg hne] at hmemo
          exact (hst q j a hq hmemo).mono hle
    found := out.found }

theorem Tracks.abandon {st st' : State V} {place i : Nat} {e : Error}
    (hlt : level p g place i < bound) {trial : Option (Answer (Step V) × Nat)}
    (out : Tracks p g (level p g place i) (Advances p place) (st.enter place i) (.broken e, st')
      trial) :
    Tracks p g bound (Advances p place) st (.broken e, st') trial where
  agrees := out.agrees
  furthest_le := out.furthest_le
  outside q j hq := by
    rw [out.outside q j (hlt.le.trans hq), State.getElem?_memo_enter, if_neg]
    rintro ⟨rfl, rfl⟩
    exact (hlt.trans_le hq).false
  faithful h := absurd rfl (h e)
  found _ h := nomatch h

theorem follows_matchNonTerminal (hp : g.CompilesTo p.grammar) (hg : g.Acyclic) {depth rounds : Nat}
    {i place : Nat} (hi : i < p.grammar.nonTerminals.size) (hle : place ≤ p.tokens.size)
    (hdepth : level p g place i < depth) (hrounds : level p g place i < rounds)
    (hlt : level p g place i < bound) :
    Follows p g bound (Advances p place) (p.matchNonTerminal depth i place)
      (p.unmemoised rounds i place) := by
  induction depth generalizing rounds i place bound with
  | zero => omega
  | succ depth ih =>
    intro st hst
    rw [matchNonTerminal_succ]
    cases hmemo : st.memo[(place, i)]? with
    | some answer =>
      have recorded := hst place i answer hlt hmemo
      obtain ⟨reach, hreach, heq⟩ := recorded.unmemoised rounds hrounds
      rw [heq, Nat.max_eq_left hreach]
      exact .still hst rfl (Nat.le_refl _) fun step h => recorded.advances step (by
        cases answer <;> simp_all [Answer.ofOption])
    | none =>
      obtain ⟨spec, hspec⟩ : ∃ spec, p.grammar.nonTerminals[i]? = some spec :=
        ⟨_, Array.getElem?_eq_getElem hi⟩
      have expanded (rounds : Nat) (h : level p g place i < rounds) :
          Tracks p g (level p g place i) (Advances p place) (st.enter place i)
            (p.expand (p.matchNonTerminal depth) spec place (st.enter place i))
            (p.unmemoised rounds i place st.furthest) := by
        obtain ⟨rounds, rfl⟩ := Nat.exists_eq_succ_of_ne_zero (Nat.ne_zero_of_lt h)
        refine follows_expand hp hg ?_ hle hspec (Nat.le_of_lt_succ h) _ (hst.anti hlt.le).enter
        intro j q hj hq hjq
        exact ih hj hq (by omega) (by omega) hjq
      simp only [hspec]
      rcases hout : p.expand (p.matchNonTerminal depth) spec place (st.enter place i) with
        ⟨step | _ | e, st'⟩
      · rw [hout] at expanded
        exact .remember (some step) hst hlt expanded hrounds
      · rw [hout] at expanded
        exact .remember none hst hlt expanded hrounds
      · rw [hout] at expanded
        exact .abandon hlt (expanded rounds hrounds)

theorem unmemoised_eq (hp : g.CompilesTo p.grammar) (hg : g.Acyclic) {rounds : Nat}
    (hrounds : p.depth ≤ rounds) :
    p.unmemoised rounds p.grammar.start 0 0 = some (p.run.1, p.run.2.furthest) := by
  have hi := hp.lt_size hp.start
  have hdepth := level_lt_depth (p := p) hp hg 0 hi
  have follows := follows_matchNonTerminal hp hg hi (Nat.zero_le _) hdepth (hdepth.trans_le hrounds)
    (Nat.lt_succ_self _)
  exact (follows {} fun place i answer _ hmemo => by simp at hmemo).agrees

/-- Parsing with memory comes to the same as parsing without: the same value and place behind it,
the same miss or the same error, and the same last missed place. -/
theorem run_eq_unmemoised {lexer : Lexer} (hp : g.compile lexer = .ok p.grammar) (hg : g.Acyclic)
    {rounds : Nat} (hrounds : p.depth ≤ rounds) :
    p.unmemoised rounds p.grammar.start 0 0 = some (p.run.1, p.run.2.furthest) :=
  unmemoised_eq (Grammar.compilesTo_of_compile hp) hg hrounds

theorem run_eq_unmemoised_calc :
    ∃ (lexer : Lexer) (c : CompiledGrammar Value),
      Calc.grammar.compile lexer = .ok c ∧ Calc.grammar.Acyclic ∧
        ∀ tokens, ∃ rounds, (Problem.mk c tokens).depth ≤ rounds ∧
          (Problem.mk c tokens).unmemoised rounds c.start 0 0 =
            some ((Problem.mk c tokens).run.1, (Problem.mk c tokens).run.2.furthest) := by
  have compiled : ∃ c, Calc.grammar.compile {
      specs := [], pattern := .empty, groups := [], keywords := [], newlines := .ignore
      kinds := .eof :: .number :: ["+", "-", "*", "/", "(", ")"].map .literal } = .ok c := ⟨_, rfl⟩
  obtain ⟨c, hc⟩ := compiled
  refine ⟨_, c, hc, Calc.acyclic_grammar, fun tokens => ⟨_, Nat.le_refl _, ?_⟩⟩
  exact run_eq_unmemoised (p := ⟨c, tokens⟩) hc Calc.acyclic_grammar (Nat.le_refl _)

end Problem

end Packrat.Parser
