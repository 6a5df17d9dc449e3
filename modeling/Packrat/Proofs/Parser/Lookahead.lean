import Packrat.Proofs.Parser.Furthest
import Packrat.Proofs.Parser.Sound
import Packrat.Proofs.Parser.Work

/-! How far a match looks. What a run finds, or that it fails, hangs on the tokens at the places
that it has tried and on no others: neither on what stands behind them nor on how many tokens there
are. -/

namespace Packrat.Parser

theorem Answer.ofOption_injective {α : Type} : (Answer.ofOption (α := α)).Injective := by
  intro a b h
  cases a <;> cases b <;> cases h <;> rfl

theorem State.keep_eq_ofOption {V : Type} {place i : Nat} {a : Answer (Step V)} {st st' : State V}
    {answer : Option (Step V)} (h : State.keep place i (a, st) = (.ofOption answer, st')) :
    a = .ofOption answer ∧ st' = st.remember place i answer := by
  cases a <;> cases answer <;> cases h <;> exact ⟨rfl, rfl⟩

namespace Problem

variable {V α β : Type} {p q : Problem V} {st st' : State V}

/-! ## Places tried on the way -/

def Seen (p : Problem V) (start stop : Nat) (st : State V) : Prop :=
  ∀ place, start ≤ place → place < stop → place < p.tokens.size ∧ place ∈ st.tried

/-- From `place` on at least one token is taken, and all that are taken have been tried. -/
def Takes (p : Problem V) (place : Nat) (step : Step V) (st : State V) : Prop :=
  place < step.next ∧ Seen p place step.next st

def Recalls (p : Problem V) (st : State V) : Prop :=
  ∀ (place i : Nat) (step : Step V), st.memo[(place, i)]? = some (some step) →
    Takes p place step st

def SameTried (p q : Problem V) (st : State V) : Prop :=
  ∀ place ∈ st.tried, q.tokens[place]? = p.tokens[place]?

def Lasting (P : State V → Prop) : Prop := ∀ ⦃st st'⦄, st.tried ⊆ st'.tried → P st → P st'

theorem Seen.lasting (p : Problem V) (start stop : Nat) : Lasting (Seen p start stop) :=
  fun _ _ htried h place hstart hstop => (h place hstart hstop).imp_right fun hmem => htried hmem

theorem Seen.self (p : Problem V) (place : Nat) (st : State V) : Seen p place place st :=
  fun _ hle hlt => absurd hlt (Nat.not_lt.2 hle)

theorem Seen.trans {start mid stop : Nat} (h : Seen p start mid st) (h' : Seen p mid stop st) :
    Seen p start stop st := by
  intro place hstart hstop
  rcases Nat.lt_or_ge place mid with hmid | hmid
  · exact h place hstart hmid
  · exact h' place hmid hstop

theorem Recalls.of_eq (h : Recalls p st) (hmemo : st'.memo = st.memo)
    (htried : st.tried ⊆ st'.tried) : Recalls p st' :=
  fun place i step hkept =>
    (h place i step (hmemo ▸ hkept)).imp_right fun hseen => Seen.lasting p _ _ htried hseen

theorem Recalls.remember (h : Recalls p st) {place i : Nat} {answer : Option (Step V)}
    (hanswer : ∀ step : Step V, answer = some step → Takes p place step st) :
    Recalls p (st.remember place i answer) := by
  intro q j step hkept
  obtain ⟨rfl, -, hstep⟩ | hbefore := State.kept_remember hkept
  · exact hanswer step hstep
  · exact h q j step hbefore

theorem Recalls.enter (h : Recalls p st) (place i : Nat) : Recalls p (st.enter place i) := by
  have hentered : Recalls p (st.record (.entered i place)) :=
    h.of_eq rfl (by simp [State.tried, State.record])
  exact hentered.remember fun _ heq => by cases heq

theorem Seen.le_size {start stop : Nat} (h : Seen p start stop st) (hlt : start < stop) :
    stop ≤ p.tokens.size := by
  have := (h (stop - 1) (by omega) (by omega)).1
  omega

theorem Seen.of_same {start stop : Nat} (h : Seen p start stop st) (hsame : SameTried p q st) :
    Seen q start stop st := by
  intro place hstart hstop
  obtain ⟨hlt, htried⟩ := h place hstart hstop
  have heq := hsame place htried
  rw [Array.getElem?_eq_getElem hlt] at heq
  exact ⟨(Array.getElem?_eq_some_iff.1 heq).1, htried⟩

theorem context_eq_of_seen (hgrammar : q.grammar = p.grammar) (hsame : SameTried p q st)
    {start stop : Nat} (hlt : start < stop) (h : Seen p start stop st) (i : Nat) :
    q.context i start stop = p.context i start stop := by
  have hle := h.le_size hlt
  have hle' := (h.of_same hsame).le_size hlt
  have htokens : q.tokens.extract start stop = p.tokens.extract start stop := by
    apply Array.ext_getElem?
    intro k
    rw [Array.getElem?_extract, Array.getElem?_extract, Nat.min_eq_left hle, Nat.min_eq_left hle']
    split
    · exact hsame _ (h (start + k) (by omega) (by omega)).2
    · rfl
  let r : Rule V := { lhs := p.grammar.name i, rhs := [] }
  have hname : q.grammar.name i = r.lhs := by rw [hgrammar]
  rw [context_eq (r := r) rfl hlt hle, context_eq hname hlt hle', htokens]

/-! ## Parts of a match -/

/-- What a part of a match has come to, and that the other one comes to the same if the tokens tried
until then are the same. -/
structure Looked (p q : Problem V) (found : α → State V → Prop) (y : Course V α) (st : State V)
    (answer : Option α) (st' : State V) : Prop where
  tried : st.tried ⊆ st'.tried
  recalls : Recalls p st'
  found (a : α) : answer = some a → found a st'
  same : SameTried p q st' → y st = some (.ofOption answer, st')

def Looks (p q : Problem V) (before : State V → Prop) (found : α → State V → Prop)
    (x y : Course V α) : Prop :=
  ∀ st answer st', Recalls p st → before st → x st = some (.ofOption answer, st') →
    Looked p q found y st answer st'

namespace Looks

variable {before : State V → Prop} {F : α → State V → Prop} {F' : β → State V → Prop}
  {x y : Course V α}

theorem found {a : α} (h : ∀ st, before st → F a st) :
    Looks p q before F (.of (Attempt.found a)) (.of (Attempt.found a)) := by
  intro st answer st' hst hbefore heq
  cases answer with
  | none => cases heq
  | some b =>
    cases heq
    exact ⟨Set.Subset.refl _, hst, fun _ heq => by cases heq; exact h st hbefore, fun _ => rfl⟩

theorem missed : Looks p q before F (.of Attempt.missed) (.of Attempt.missed) := by
  intro st answer st' hst _ heq
  cases answer with
  | none =>
    cases heq
    exact ⟨Set.Subset.refl _, hst, fun _ heq => (by cases heq), fun _ => rfl⟩
  | some b => cases heq

theorem frame {P : State V → Prop} (hP : Lasting P) (h : Looks p q (fun _ => True) F x y) :
    Looks p q P (fun a st => F a st ∧ P st) x y := by
  intro st answer st' hst hpost heq
  have hlooked := h st answer st' hst trivial heq
  exact ⟨hlooked.tried, hlooked.recalls, fun a ha => ⟨hlooked.found a ha, hP hlooked.tried hpost⟩,
    hlooked.same⟩

theorem mono {before' : State V → Prop} {G : α → State V → Prop} (h : Looks p q before F x y)
    (hbefore : ∀ st, before' st → before st) (hF : ∀ a st, F a st → G a st) :
    Looks p q before' G x y := by
  intro st answer st' hst hst' heq
  have hlooked := h st answer st' hst (hbefore st hst') heq
  exact ⟨hlooked.tried, hlooked.recalls, fun a ha => hF a st' (hlooked.found a ha), hlooked.same⟩

theorem given {c : Prop} (hc : ∀ st, before st → c) (h : c → Looks p q before F x y) :
    Looks p q before F x y :=
  fun st answer st' hst hbefore heq => h (hc st hbefore) st answer st' hst hbefore heq

theorem andElse {f f' : α → Course V β} {m m' : Course V β} (hx : Looks p q before F x y)
    (hlasting : Lasting before) (hf : ∀ a, Looks p q (F a) F' (f a) (f' a))
    (hm : Looks p q before F' m m') : Looks p q before F' (x.andElse f m) (y.andElse f' m') := by
  intro st answer st' hst hbefore heq
  have compose {first : Option α} {mid : State V} (hfirst : Looked p q F y st first mid)
      {rest : Course V β} (hrest : Looked p q F' rest mid answer st')
      (hnext : y st = some (.ofOption first, mid) → y.andElse f' m' st = rest mid) :
      Looked p q F' (y.andElse f' m') st answer st' :=
    ⟨hfirst.tried.trans hrest.tried, hrest.recalls, hrest.found, fun hsame => by
      rw [hnext (hfirst.same fun place hplace => hsame place (hrest.tried hplace))]
      exact hrest.same hsame⟩
  unfold Course.andElse at heq
  rcases hout : x st with _ | ⟨a | _ | e, mid⟩ <;> rw [hout] at heq
  · cases heq
  · have hfirst := hx st (some a) mid hst hbefore hout
    refine compose hfirst (hf a mid answer st' hfirst.recalls (hfirst.found a rfl) heq) fun h => ?_
    rw [Course.andElse, h]
    rfl
  · have hfirst := hx st none mid hst hbefore hout
    refine compose hfirst
      (hm mid answer st' hfirst.recalls (hlasting hfirst.tried hbefore) heq) fun h => ?_
    rw [Course.andElse, h]
    rfl
  · cases answer <;> cases heq

end Looks

theorem looks_escalate {F : α → State V → Prop} {before : State V → Prop} (rule : CompiledRule V)
    (soft : Bool) (slot : Slot) (place : Nat) :
    Looks p q before F (.of (p.escalate rule soft slot place))
      (.of (q.escalate rule soft slot place)) := by
  intro st answer st' hst _ heq
  simp only [Course.of, escalate] at heq
  split at heq
  · cases answer <;> cases heq
  · next hsoft =>
    cases answer with
    | none =>
      cases heq
      refine ⟨Set.Subset.refl _, hst, fun _ heq => (by cases heq), fun _ => ?_⟩
      simp only [Course.of, escalate, if_neg hsoft]
      rfl
    | some a => cases heq

theorem looks_reduce (hgrammar : q.grammar = p.grammar) (rule : CompiledRule V) {start stop : Nat}
    (hlt : start < stop) (values : List V) :
    Looks p q (Seen p start stop) (fun step st => step.next = stop ∧ Seen p start stop st)
      (.of (p.reduce rule start stop values)) (.of (q.reduce rule start stop values)) := by
  intro st answer st' hst hseen heq
  have htried : st.tried = (st.record (.reduced rule.lhs start stop)).tried := by simp
  unfold Course.of reduce at *
  cases hreducer : rule.reducer with
  | some f =>
    rw [hreducer] at heq
    dsimp only at heq ⊢
    cases hf : f (p.context rule.lhs start stop) values with
    | error e =>
      rw [hf] at heq
      cases answer <;> cases heq
    | ok v =>
      rw [hf] at heq
      cases answer with
      | none => cases heq
      | some step =>
        cases heq
        refine ⟨htried.le, hst.of_eq rfl htried.le, ?_, fun hsame => ?_⟩
        · rintro _ ⟨⟩
          exact ⟨rfl, Seen.lasting p _ _ htried.le hseen⟩
        · rw [SameTried, ← htried] at hsame
          rw [context_eq_of_seen hgrammar hsame hlt hseen, hf]
          rfl
  | none =>
    rw [hreducer] at heq
    dsimp only at heq ⊢
    cases hlast : values.getLast? with
    | none =>
      rw [hlast] at heq
      cases answer <;> cases heq
    | some v =>
      rw [hlast] at heq
      cases answer with
      | none => cases heq
      | some step =>
        cases heq
        refine ⟨Set.Subset.refl _, hst, ?_, fun _ => rfl⟩
        rintro _ ⟨⟩
        exact ⟨rfl, hseen⟩

section

variable [OfToken V] {recur recur' : Nat → Nat → Course V (Step V)}

def RecursionLooks (p q : Problem V) (recur recur' : Nat → Nat → Course V (Step V)) : Prop :=
  ∀ i place, Looks p q (fun _ => True) (Takes p place) (recur i place) (recur' i place)

theorem looks_slot (hrecur : RecursionLooks p q recur recur') (slot : Slot) (place : Nat) :
    Looks p q (fun _ => True) (Takes p place) (p.courseSlot recur slot place)
      (q.courseSlot recur' slot place) := by
  cases slot with
  | nonTerminal j => exact hrecur j place
  | terminal kind =>
    intro st answer st' hst _ heq
    obtain ⟨hmemo, hevents, hfound⟩ :=
      p.matchSlot_terminal (fun _ _ => Attempt.missed) kind place st
    rw [Option.some.inj heq] at hmemo hevents hfound
    dsimp only at hmemo hevents hfound
    have hmem : place ∈ st'.tried := by simp [State.tried, hevents]
    have hsubset : st.tried ⊆ st'.tried := by simp +contextual [State.tried, hevents]
    refine ⟨hsubset, hst.of_eq hmemo hsubset, ?_, fun hsame => ?_⟩
    · rintro step rfl
      obtain ⟨hlt, hnext⟩ := hfound step rfl
      rw [Takes, hnext]
      refine ⟨Nat.lt_succ_self place, fun k hle hk => ?_⟩
      obtain rfl : k = place := by omega
      exact ⟨hlt, hmem⟩
    · rw [← heq]
      unfold courseSlot Course.of matchSlot
      rw [hsame place hmem]

theorem looks_sequence (hrecur : RecursionLooks p q recur recur') (rule : CompiledRule V)
    (soft : Bool) (slots : List Slot) (place : Nat) :
    Looks p q (fun _ => True) (fun x st => place + slots.length ≤ x.2 ∧ Seen p place x.2 st)
      (p.courseSequence recur rule soft slots place)
      (q.courseSequence recur' rule soft slots place) := by
  induction slots generalizing soft place with
  | nil => exact .found fun st _ => ⟨Nat.le_refl _, .self p place st⟩
  | cons slot rest ih =>
    refine (looks_slot hrecur slot place).andElse (fun _ _ _ => id) (fun step => ?_)
      (looks_escalate rule soft slot place)
    refine .given (fun _ h => h.1) fun hlt => ?_
    have hlasting := Seen.lasting p place step.next
    have hrest : Looks p q (Takes p place step) _ _ _ :=
      ((ih false step.next).frame hlasting).mono (fun _ h => h.2) fun _ _ h => h
    refine hrest.andElse (fun _ _ htried h => ⟨h.1, hlasting htried h.2⟩) (fun x => ?_) .missed
    refine .found fun st h => ?_
    obtain ⟨⟨hlen, hseen⟩, hfirst⟩ := h
    exact ⟨by rw [List.length_cons]; dsimp only; omega, hfirst.trans hseen⟩

variable (hgrammar : q.grammar = p.grammar)

include hgrammar

theorem looks_choice (hrecur : RecursionLooks p q recur recur') (base : Option (Step V))
    {place : Nat} (hle : place ≤ startBehind base place) {rules : List (CompiledRule V)}
    (hne : ∀ rule ∈ rules, slotsBehind base rule ≠ []) :
    Looks p q (Seen p place (startBehind base place)) (Takes p place)
      (p.courseChoice recur place base rules) (q.courseChoice recur' place base rules) := by
  have hlasting := Seen.lasting p place (startBehind base place)
  induction rules with
  | nil => exact .missed
  | cons rule rest ih =>
    obtain ⟨hfirst, hne⟩ := List.forall_mem_cons.1 hne
    have hsequence := looks_sequence hrecur rule base.isSome (slotsBehind base rule)
      (startBehind base place)
    refine (hsequence.frame hlasting).andElse hlasting (fun x => ?_) (ih hne)
    refine .given (fun _ h => h.1.1) fun hlen => ?_
    have hpos := List.length_pos_iff.2 hfirst
    have hlt : place < x.2 := by omega
    refine (looks_reduce hgrammar rule hlt _).mono (fun st h => h.2.trans h.1.2) fun step st h => ?_
    exact ⟨h.1 ▸ hlt, h.1 ▸ h.2⟩

variable {g : Grammar V} (hp : g.CompilesTo p.grammar)

include hp

theorem looks_grow (hrecur : RecursionLooks p q recur recur') (i place rounds : Nat)
    (base : Step V) :
    Looks p q (Takes p place base) (Takes p place)
      (p.courseGrow recur place (p.grammar.rulesOf i true) rounds base)
      (q.courseGrow recur' place (p.grammar.rulesOf i true) rounds base) := by
  have hne (rule : CompiledRule V) (h : rule ∈ p.grammar.rulesOf i true) :=
    hp.tail_ne_nil (Grammar.CompilesTo.mem_rulesOf.1 h).1 (Grammar.CompilesTo.mem_rulesOf.1 h).2.2
  induction rounds generalizing base with
  | zero => exact fun _ _ _ _ _ h => nomatch h
  | succ rounds ih =>
    refine .given (fun _ h => h.1) fun hlt => ?_
    have hlasting : Lasting (Takes p place base) := fun _ _ htried h =>
      ⟨h.1, Seen.lasting p _ _ htried h.2⟩
    have hchoice := looks_choice hgrammar hrecur (some base) hlt.le hne
    refine (hchoice.mono (fun _ h => h.2) fun _ _ h => h).andElse hlasting ih ?_
    exact .found fun _ h => h

theorem looks_expand (hrecur : RecursionLooks p q recur recur') (rounds i place : Nat) :
    Looks p q (fun _ => True) (Takes p place) (p.courseExpand recur rounds i place)
      (q.courseExpand recur' rounds i place) := by
  have hne (rule : CompiledRule V) (h : rule ∈ p.grammar.rulesOf i false) :=
    hp.rhs_ne_nil (Grammar.CompilesTo.mem_rulesOf.1 h).1
  have hchoice := looks_choice hgrammar hrecur none (Nat.le_refl place) hne
  unfold courseExpand
  rw [hgrammar]
  refine (hchoice.mono (fun st _ => .self p place st) fun _ _ h => h).andElse (fun _ _ _ => id)
    (looks_grow hgrammar hp hrecur i place rounds) .missed

theorem looks_course (rounds depth : Nat) :
    RecursionLooks p q (p.course rounds depth) (q.course rounds depth) := by
  -- The depth and the rounds are the same in both courses, so the numbers of tokens have no
  -- part.
  induction depth with
  | zero => exact fun _ _ _ _ _ _ _ h => nomatch h
  | succ depth ih =>
    intro i place st answer st' hst _ heq
    cases hmemo : st.memo[(place, i)]? with
    | some kept =>
      rw [course_of_kept hmemo] at heq
      obtain ⟨hanswer, rfl⟩ := Prod.mk.inj (Option.some.inj heq)
      obtain rfl := Answer.ofOption_injective hanswer
      refine ⟨Set.Subset.refl _, hst, fun step hstep => hst place i step (hstep ▸ hmemo),
        fun _ => ?_⟩
      rw [course_of_kept hmemo]
    | none =>
      rw [course_of_fresh hmemo] at heq
      obtain ⟨⟨a, mid⟩, hexpand, hkeep⟩ := Option.map_eq_some_iff.1 heq
      obtain ⟨rfl, rfl⟩ := State.keep_eq_ofOption hkeep
      have hlooked := looks_expand hgrammar hp ih rounds i place _ answer mid (hst.enter place i)
        trivial hexpand
      have htried := hlooked.tried
      rw [State.tried_enter] at htried
      refine ⟨htried, hlooked.recalls.remember hlooked.found, ?_, fun hsame => ?_⟩
      · exact fun step hstep => hlooked.found step hstep
      · rw [course_of_fresh hmemo, hlooked.same hsame]
        cases answer <;> rfl

end

/-- What is found, or that nothing is, hangs on no tokens but those at places that were tried. In
particular the tokens behind the last of these places have no part in it. -/
theorem run_eq_of_tried [OfToken V] {g : Grammar V} {lexer : Lexer}
    (hp : g.compile lexer = .ok p.grammar) (hgrammar : q.grammar = p.grammar)
    (hsame : ∀ place ∈ p.run.2.tried, q.tokens[place]? = p.tokens[place]?) :
    (∀ step, p.run.1 = .found step → q.run.1 = .found step) ∧
      (p.run.1 = .missed → q.run.1 = .missed) := by
  have hc := Grammar.compilesTo_of_compile hp
  have hc' : g.CompilesTo q.grammar := hgrammar ▸ hc
  -- Bounds that are enough for either number of tokens.
  let rounds := max p.tokens.size q.tokens.size + 1
  let depth := max p.depth q.depth
  have ends {r : Problem V} (hr : g.CompilesTo r.grammar) (hrounds : r.tokens.size < rounds)
      (hdepth : r.depth ≤ depth) : r.course rounds depth r.grammar.start 0 {} = some r.run :=
    (works_matchNonTerminal hr hrounds (Nat.le_refl r.depth) hdepth r.grammar.start 0
      (hr.lt_size hr.start) (Nat.zero_le _) {} .empty (fresh_lt_depth _) trivial).1
  have hp' := ends hc (by omega) (Nat.le_max_left _ _)
  have hq' := ends hc' (by omega) (Nat.le_max_right _ _)
  have agrees (answer : Option (Step V)) (h : p.run.1 = .ofOption answer) :
      q.run.1 = .ofOption answer := by
    have hrun : p.run = (.ofOption answer, p.run.2) := by rw [← h]
    have hlooked := looks_course hgrammar hc rounds depth p.grammar.start 0 {} answer p.run.2
      (fun _ _ _ hkept => by simp at hkept) trivial (hp'.trans (congrArg some hrun))
    have hsame' := hlooked.same hsame
    rw [← hgrammar, hq'] at hsame'
    exact congrArg Prod.fst (Option.some.inj hsame')
  exact ⟨fun step => agrees (some step), agrees none⟩

def pairs : Grammar Value where
  start := "pairs"
  rules := [
    { lhs := "pairs"
      rhs := [.nonTerminal "pairs", .terminal .name]
      reducer := some fun _ values => pure (.list values) },
    { lhs := "pairs", rhs := [.terminal .name] }]

theorem run_eq_of_tried_pairs :
    ∃ (lexer : Lexer) (p q : Problem Value) (step : Step Value) (rest : List Token),
      pairs.compile lexer = .ok p.grammar ∧ q.grammar = p.grammar ∧ rest.length = 2 ∧
        q.tokens = p.tokens ++ rest.toArray ∧ p.run.2.tried = {0, 1, 2} ∧
          (∀ place ∈ p.run.2.tried, q.tokens[place]? = p.tokens[place]?) ∧
            p.run.1 = .found step ∧ step.next = 2 ∧ q.run.1 = .found step := by
  let words : Array Token := #[
    ⟨.span "words" 0 1 1, .name, some (.text "a")⟩,
    ⟨.span "words" 2 3 1, .name, some (.text "b")⟩,
    ⟨.span "words" 4 5 1, .number, some (.number 1.0)⟩]
  let rest : List Token := [
    ⟨.span "words" 6 7 1, .name, some (.text "c")⟩,
    ⟨.span "words" 7 7 1, .eof, none⟩]
  obtain ⟨c, hc, hrun, hevents⟩ : ∃ c, pairs.compile {
        specs := [], pattern := .empty, groups := [], keywords := [], newlines := .keep
        kinds := Kind.categories } = .ok c ∧
      (Problem.mk c words).run.1 = .found ⟨.list [.string "a", .string "b"], 2⟩ ∧
      (Problem.mk c words).run.2.events =
        [.tried 2, .reduced 0 0 2, .tried 1, .tried 0, .entered 0 0] := by
    refine ⟨_, rfl, ?_, ?_⟩ <;> unfold run <;>
      rw [show depth _ = 4 + 1 from rfl, matchNonTerminal_succ, Std.HashMap.getElem?_empty] <;> rfl
  have htried : (Problem.mk c words).run.2.tried = {0, 1, 2} := by
    ext place
    simp [State.tried, hevents]
    omega
  have hsame (place : Nat) (h : place ∈ (Problem.mk c words).run.2.tried) :
      (words ++ rest.toArray)[place]? = words[place]? := by
    rw [htried] at h
    rcases h with rfl | rfl | rfl <;> rfl
  have hmore := run_eq_of_tried (p := ⟨c, words⟩) (q := ⟨c, words ++ rest.toArray⟩) hc rfl hsame
  exact ⟨_, ⟨c, words⟩, ⟨c, words ++ rest.toArray⟩, _, rest, hc, rfl, rfl, rfl, htried, hsame, hrun,
    rfl, hmore.1 _ hrun⟩

end Problem

end Packrat.Parser
