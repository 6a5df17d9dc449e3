import Packrat.Proofs.Parser.Diagnostics
import Packrat.Proofs.Parser.Memo
import Packrat.Proofs.Parser.Plain
import Packrat.Proofs.Parser.Rearranged
import Packrat.Proofs.Parser.Trial
import Mathlib.Order.Bounds.Basic

/-! Only misses count for the last missed place. Where a parse fails it is the last place tried all
the same: behind a terminal that matches another one is tried, until one misses. -/

namespace Packrat

variable {V α β : Type}

def Grammar.Grounded (g : Grammar V) : Prop :=
  ∀ r ∈ g.rules, ∃ r' ∈ g.rules, r'.lhs = r.lhs ∧ r'.isLeftRecursive = false

theorem Grammar.CompilesTo.rulesOf_ne_nil {g : Grammar V} {c : CompiledGrammar V}
    (hc : g.CompilesTo c) (hground : g.Grounded) {i : Nat} (hi : i < c.nonTerminals.size) :
    c.rulesOf i false ≠ [] := by
  have hlt : i < g.names.length := hc.size_eq ▸ hi
  have hname := List.getElem?_eq_getElem hlt
  obtain ⟨r, hr, hlhs⟩ := Grammar.mem_names.1 (List.mem_of_getElem? hname)
  obtain ⟨r', hr', hlhs', hordinary⟩ := hground r hr
  have hmem : r' ∈ g.rulesFor g.names[i] false := by
    simp [Grammar.rulesFor, hr', hlhs', hlhs, hordinary]
  intro hnil
  have hrules := hc.forall₂_rulesOf hname false
  rw [hnil, List.forall₂_nil_right_iff] at hrules
  rw [hrules] at hmem
  cases hmem

namespace Parser

namespace State

/-- The places at which a terminal has been compared with a token, or with none behind the end. -/
def tried (st : State V) : Set Nat := {place | .tried place ∈ st.events}

variable (st : State V)

@[simp] theorem tried_record_tried (place : Nat) :
    (st.record (.tried place)).tried = insert place st.tried := by
  ext q
  simp [tried, record]

@[simp] theorem tried_record_reduced (i start stop : Nat) :
    (st.record (.reduced i start stop)).tried = st.tried := by
  simp [tried, record]

@[simp] theorem tried_miss (place : Nat) : (st.miss place).tried = st.tried := rfl

@[simp] theorem tried_remember (place i : Nat) (answer : Option (Step V)) :
    (st.remember place i answer).tried = st.tried := rfl

@[simp] theorem tried_enter (place i : Nat) : (st.enter place i).tried = st.tried := by
  simp [tried, enter, record, remember]

end State

namespace Problem

structure Passed (place : Nat) (st : State V) : Prop where
  le_furthest : place ≤ st.furthest
  nonempty : st.tried.Nonempty

/-- All places tried are in front of `place`, unless a later one has been missed. What is kept as
missed below a level has been passed. -/
structure Covered (p : Problem V) (g : Grammar V) (bound place : Nat) (st : State V) : Prop where
  le_or_lt (q : Nat) : q ∈ st.tried → q ≤ st.furthest ∨ q < place
  furthest : st.furthest = 0 ∨ st.furthest ∈ st.tried
  kept (q j : Nat) : level p g q j < bound → st.memo[(q, j)]? = some none → Passed q st

structure Stopped (p : Problem V) (g : Grammar V) (bound place : Nat) (st : State V) : Prop extends
  Covered p g bound place st, Passed place st

variable {p : Problem V} {g : Grammar V} {bound place : Nat} {st st' : State V}

theorem Passed.mono (h : Passed place st) (htried : st.tried ⊆ st'.tried)
    (hfurthest : st.furthest ≤ st'.furthest) : Passed place st' where
  le_furthest := h.le_furthest.trans hfurthest
  nonempty := h.nonempty.mono htried

namespace Covered

theorem of_eq (h : Covered p g bound place st) (htried : st'.tried = st.tried)
    (hfurthest : st'.furthest = st.furthest) (hmemo : st'.memo = st.memo) :
    Covered p g bound place st' where
  le_or_lt := by simpa [htried, hfurthest] using h.le_or_lt
  furthest := by simpa [htried, hfurthest] using h.furthest
  kept q j hlt hkept := (h.kept q j hlt (hmemo ▸ hkept)).mono htried.ge hfurthest.ge

theorem mono {later : Nat} (h : Covered p g bound place st) (hle : place ≤ later) :
    Covered p g bound later st where
  le_or_lt q hq := (h.le_or_lt q hq).imp_right fun hlt => hlt.trans_le hle
  furthest := h.furthest
  kept := h.kept

theorem take (h : Covered p g bound place st) :
    Covered p g bound (place + 1) (st.record (.tried place)) where
  le_or_lt q hq := by
    rw [State.tried_record_tried] at hq
    rcases hq with rfl | hq
    · exact .inr (Nat.lt_succ_self q)
    · exact (h.le_or_lt q hq).imp_right Nat.lt_succ_of_lt
  furthest := by
    rw [State.tried_record_tried]
    exact h.furthest.imp_right (Set.mem_insert_of_mem place)
  kept q j hlt hkept := (h.kept q j hlt hkept).mono (by simp) (Nat.le_refl _)

theorem stop (h : Covered p g bound place st) :
    Stopped p g bound place ((st.record (.tried place)).miss place) where
  le_or_lt q hq := by
    rw [State.tried_miss, State.tried_record_tried] at hq
    rcases hq with rfl | hq
    · exact .inl (Nat.le_max_right _ _)
    · exact (h.le_or_lt q hq).imp_left (Nat.le_trans · (Nat.le_max_left _ _))
  furthest := by
    rw [State.tried_miss, State.tried_record_tried]
    rcases Nat.le_total st.furthest place with hle | hle
    · exact .inr (.inl (Nat.max_eq_right hle))
    · have heq : max st.furthest place = st.furthest := Nat.max_eq_left hle
      simpa [State.miss, State.record, heq] using h.furthest.imp_right .inr
  kept q j hlt hkept := (h.kept q j hlt hkept).mono (by simp) (Nat.le_max_left _ _)
  le_furthest := Nat.le_max_right _ _
  nonempty := by simp

theorem enter {i : Nat} (h : Covered p g bound place st) (hlt : level p g place i < bound) :
    Covered p g (level p g place i) place (st.enter place i) where
  le_or_lt := by
    rw [State.tried_enter]
    exact h.le_or_lt
  furthest := by
    rw [State.tried_enter]
    exact h.furthest
  kept q j hlevel hkept := by
    rw [State.getElem?_memo_enter, if_neg] at hkept
    · exact (h.kept q j (hlevel.trans hlt) hkept).mono (by simp) (Nat.le_refl _)
    · rintro ⟨rfl, rfl⟩
      exact hlevel.false

theorem remember {i next : Nat} (answer : Option (Step V)) (h : Covered p g bound place st)
    (hout : Covered p g (level p g place i) next st') (htried : st.tried ⊆ st'.tried)
    (hfurthest : st.furthest ≤ st'.furthest)
    (houtside : ∀ q j, level p g place i ≤ level p g q j →
      st'.memo[(q, j)]? = (st.enter place i).memo[(q, j)]?)
    (hanswer : answer = none → Passed place st') :
    Covered p g bound next (st'.remember place i answer) where
  le_or_lt := hout.le_or_lt
  furthest := hout.furthest
  kept q j hlt hkept := by
    have hpassed : Passed q st' := by
      rw [State.getElem?_memo_remember] at hkept
      split at hkept
      · next hown =>
        obtain ⟨rfl, rfl⟩ := hown
        exact hanswer (Option.some.inj hkept)
      · next hother =>
        by_cases hbelow : level p g q j < level p g place i
        · exact hout.kept q j hbelow hkept
        · rw [houtside q j (Nat.not_lt.1 hbelow), State.getElem?_memo_enter, if_neg hother] at hkept
          exact (h.kept q j hlt hkept).mono htried hfurthest
    exact ⟨hpassed.le_furthest, hpassed.nonempty⟩

end Covered

namespace Stopped

theorem le_of_tried (h : Stopped p g bound place st) {q : Nat} (hq : q ∈ st.tried) :
    q ≤ st.furthest :=
  (h.le_or_lt q hq).elim id fun hlt => hlt.le.trans h.le_furthest

theorem anti {later : Nat} (h : Stopped p g bound later st) (hle : place ≤ later) :
    Stopped p g bound place st where
  le_or_lt _ hq := .inl (h.le_of_tried hq)
  furthest := h.furthest
  kept := h.kept
  le_furthest := hle.trans h.le_furthest
  nonempty := h.nonempty

theorem isGreatest (h : Stopped p g bound place st) : IsGreatest st.tried st.furthest := by
  refine ⟨?_, fun q => h.le_of_tried⟩
  rcases h.furthest with hzero | hmem
  · obtain ⟨q, hq⟩ := h.nonempty
    have hq' := h.le_of_tried hq
    rw [hzero, Nat.le_zero] at hq'
    rwa [hzero, ← hq']
  · exact hmem

end Stopped

variable [OfToken V]

def Explores (p : Problem V) (g : Grammar V) (bound : Nat) (before : State V → Prop)
    (found : α → State V → Prop) (missed : State V → Prop) (x : Attempt V α) : Prop :=
  ∀ st, Faithful p g bound st → before st →
    st.tried ⊆ (x st).2.tried ∧
      (x st).1.Holds (found · (x st).2) (missed (x st).2) fun _ => True

namespace Explores

variable {before missed missed' : State V → Prop} {F : α → State V → Prop} {F' : β → State V → Prop}

theorem found {a : α} (h : ∀ st, before st → F a st) :
    Explores p g bound before F missed (Attempt.found a) :=
  fun st _ hst => ⟨Set.Subset.refl _, h st hst⟩

theorem of_missed (h : ∀ st, before st → missed st) :
    Explores p g bound before F missed Attempt.missed :=
  fun st _ hst => ⟨Set.Subset.refl _, h st hst⟩

theorem anti {x : Attempt V α} {before' : State V → Prop} (h : Explores p g bound before F missed x)
    (hbefore : ∀ st, before' st → before st) : Explores p g bound before' F missed x :=
  fun st hright hst => h st hright (hbefore st hst)

theorem andElse {R : α → Prop} {x : Attempt V α} {y : Trial α} {f : α → Attempt V β}
    {m : Attempt V β} (hfollows : Follows p g bound R x y)
    (hx : Explores p g bound before F missed x)
    (hf : ∀ a, R a → Explores p g bound (F a) F' missed' (f a))
    (hm : Explores p g bound missed F' missed' m) :
    Explores p g bound before F' missed' (x.andElse f m) := by
  intro st hright hst
  obtain ⟨htried, hx⟩ := hx st hright hst
  have htracks := hfollows st hright
  rcases hout : x st with ⟨a | _ | e, st'⟩ <;> rw [hout] at htried hx htracks
  · rw [Attempt.andElse_of_found hout]
    obtain ⟨hmore, hanswer⟩ := hf a (htracks.found a rfl) st' (htracks.faithful nofun) hx
    exact ⟨htried.trans hmore, hanswer⟩
  · rw [Attempt.andElse_of_missed hout]
    obtain ⟨hmore, hanswer⟩ := hm st' (htracks.faithful nofun) hx
    exact ⟨htried.trans hmore, hanswer⟩
  · rw [Attempt.andElse_of_broken hout]
    exact ⟨htried, trivial⟩

end Explores

theorem explores_escalate {F : α → State V → Prop} {missed : State V → Prop}
    (rule : CompiledRule V) (soft : Bool) (slot : Slot) :
    Explores p g bound missed F missed (p.escalate rule soft slot place) := by
  intro st _ hst
  unfold escalate
  split
  · exact ⟨Set.Subset.refl _, trivial⟩
  · exact ⟨Set.Subset.refl _, hst⟩

theorem explores_reduce {missed : State V → Prop} (rule : CompiledRule V) (start stop : Nat)
    (values : List V) :
    Explores p g bound (Covered p g bound stop) (fun step => Covered p g bound step.next) missed
      (p.reduce rule start stop values) := by
  intro st _ hst
  have hreduced : Covered p g bound stop (st.record (.reduced rule.lhs start stop)) :=
    hst.of_eq (by simp) rfl rfl
  unfold reduce
  cases rule.reducer with
  | some f =>
    cases hf : f (p.context rule.lhs start stop) values with
    | ok v =>
      simp only [hf]
      exact ⟨by simp, hreduced⟩
    | error e =>
      simp only [hf]
      exact ⟨by simp, trivial⟩
  | none =>
    cases values.getLast? with
    | some v => exact ⟨Set.Subset.refl _, hst⟩
    | none => exact ⟨Set.Subset.refl _, trivial⟩

section

variable {recur : Recursion V} {recur' : Nat → Nat → Trial (Step V)}

def RecursionExplores (p : Problem V) (g : Grammar V) (bound : Nat) (recur : Recursion V) : Prop :=
  ∀ i place, i < p.grammar.nonTerminals.size → place ≤ p.tokens.size → level p g place i < bound →
    Explores p g bound (Covered p g bound place) (fun step => Covered p g bound step.next)
      (Stopped p g bound place) (recur i place)

theorem explores_matchSlot (hrecur : RecursionExplores p g bound recur) {slot : Slot}
    (hle : place ≤ p.tokens.size)
    (hslot : ∀ j, slot = .nonTerminal j →
      j < p.grammar.nonTerminals.size ∧ level p g place j < bound) :
    Explores p g bound (Covered p g bound place) (fun step => Covered p g bound step.next)
      (Stopped p g bound place) (p.matchSlot recur slot place) := by
  cases slot with
  | nonTerminal j => exact hrecur j place (hslot j rfl).1 hle (hslot j rfl).2
  | terminal kind =>
    intro st _ hst
    unfold matchSlot
    cases p.tokens[place]? with
    | none => exact ⟨by simp, hst.stop⟩
    | some t =>
      dsimp only
      split
      · exact ⟨by simp, hst.take⟩
      · exact ⟨by simp, hst.stop⟩

variable (hfollows : RecursionFollows p g bound recur recur')
  (hrecur : RecursionExplores p g bound recur)

include hfollows hrecur

theorem explores_sequence (rule : CompiledRule V) (soft : Bool) {slots : List Slot}
    (hle : place ≤ p.tokens.size) (hslots : SlotsBelow p g bound place slots) :
    Explores p g bound (Covered p g bound place) (fun x => Covered p g bound x.2)
      (Stopped p g bound place) (p.sequence recur rule soft slots place) := by
  induction slots generalizing soft place with
  | nil => exact .found fun st hst => hst
  | cons slot rest ih =>
    refine .andElse (follows_matchSlot hfollows hle hslots.head)
      (explores_matchSlot hrecur hle hslots.head) ?_ (explores_escalate rule soft slot)
    rintro step ⟨hlt, hnext⟩
    have hrest := hslots.tail hlt hnext
    refine .andElse (follows_sequence hfollows rule false hnext hrest) (ih false hnext hrest) ?_ ?_
    · exact fun x _ => .found fun st hst => hst
    · exact .of_missed fun st hst => hst.anti hlt.le

theorem explores_choice (base : Option (Step V)) {rules : List (CompiledRule V)}
    (hle : startBehind base place ≤ p.tokens.size)
    (hslots : ∀ rule ∈ rules, SlotsBelow p g bound (startBehind base place) (slotsBehind base rule))
    {before missed : State V → Prop}
    (hbefore : ∀ st, before st → Covered p g bound (startBehind base place) st)
    (hmissed : ∀ st, Stopped p g bound (startBehind base place) st → missed st)
    (hnil : rules = [] → ∀ st, before st → missed st) :
    Explores p g bound before (fun step => Covered p g bound step.next) missed
      (p.choice recur place base rules) := by
  induction rules generalizing before with
  | nil => exact .of_missed (hnil rfl)
  | cons rule rest ih =>
    rw [List.forall_mem_cons] at hslots
    have hsequence := explores_sequence hfollows hrecur rule base.isSome hle hslots.1
    refine .andElse (follows_sequence hfollows rule base.isSome hle hslots.1)
      (hsequence.anti hbefore) (fun x _ => explores_reduce rule place x.2 _) ?_
    exact ih hslots.2 (fun st hst => hst.toCovered) fun _ => hmissed

end

section

variable (hp : g.CompilesTo p.grammar) (hg : g.Acyclic) {recur : Recursion V}
  {recur' : Nat → Nat → Trial (Step V)} {i : Nat}
  (hfollows : RecursionFollows p g (level p g place i) recur recur')
  (hrecur : RecursionExplores p g (level p g place i) recur)

include hp hg hfollows hrecur

theorem explores_ordinary (hne : p.grammar.rulesOf i false ≠ []) (hle : place ≤ p.tokens.size) :
    Explores p g (level p g place i) (Covered p g (level p g place i) place)
      (fun step => Covered p g (level p g place i) step.next)
      (Stopped p g (level p g place i) place)
      (p.choice recur place none (p.grammar.rulesOf i false)) :=
  explores_choice hfollows hrecur none hle (fun _ h => .of_ordinary hp hg place h)
    (fun _ hst => hst) (fun _ hst => hst) fun hnil => absurd hnil hne

theorem explores_extension {base : Step V} (hbase : Advances p place base) :
    Explores p g (level p g place i) (Covered p g (level p g place i) base.next)
      (fun step => Covered p g (level p g place i) step.next)
      (Covered p g (level p g place i) base.next)
      (p.choice recur place (some base) (p.grammar.rulesOf i true)) :=
  explores_choice hfollows hrecur (some base) hbase.2
    (fun _ h => .of_leftRecursive hp hg hbase.1 hbase.2 h) (fun _ hst => hst)
    (fun _ hst => hst.toCovered) fun _ _ hst => hst

theorem explores_grow {missed : State V → Prop} (fuel : Nat) {base : Step V}
    (hbase : Advances p place base) :
    Explores p g (level p g place i) (Covered p g (level p g place i) base.next)
      (fun step => Covered p g (level p g place i) step.next) missed
      (p.grow recur place (p.grammar.rulesOf i true) fuel base) := by
  induction fuel generalizing base with
  | zero => exact .found fun st hst => hst
  | succ fuel ih =>
    refine .andElse (follows_extension hp hg hfollows hbase)
      (explores_extension hp hg hfollows hrecur hbase) ?_ (.found fun st hst => hst)
    rintro step ⟨hlt, hle⟩
    exact ih ⟨hbase.1.trans hlt, hle⟩

theorem explores_expand (hne : p.grammar.rulesOf i false ≠ []) (hle : place ≤ p.tokens.size)
    {spec : NonTerminal} (hspec : p.grammar.nonTerminals[i]? = some spec) :
    Explores p g (level p g place i) (Covered p g (level p g place i) place)
      (fun step => Covered p g (level p g place i) step.next)
      (Stopped p g (level p g place i) place) (p.expand recur spec place) := by
  rw [expand_eq hp hspec]
  refine .andElse (follows_ordinary hp hg hfollows hle)
    (explores_ordinary hp hg hfollows hrecur hne hle) ?_ (.of_missed fun st hst => hst)
  exact fun base hbase => explores_grow hp hg hfollows hrecur _ hbase

end

theorem explores_matchNonTerminal (hp : g.CompilesTo p.grammar) (hg : g.Acyclic)
    (hground : g.Grounded) {depth i : Nat} (hi : i < p.grammar.nonTerminals.size)
    (hle : place ≤ p.tokens.size) (hdepth : level p g place i < depth)
    (hlt : level p g place i < bound) :
    Explores p g bound (Covered p g bound place) (fun step => Covered p g bound step.next)
      (Stopped p g bound place) (p.matchNonTerminal depth i place) := by
  induction depth generalizing i place bound with
  | zero => omega
  | succ depth ih =>
    intro st hright hst
    cases hmemo : st.memo[(place, i)]? with
    | some answer =>
      rw [matchNonTerminal_of_kept hmemo]
      refine ⟨Set.Subset.refl _, ?_⟩
      cases answer with
      | some step =>
        exact hst.mono ((hright place i _ hlt hmemo).advances step rfl).1.le
      | none => exact ⟨hst, hst.kept place i hlt hmemo⟩
    | none =>
      have hspec := Array.getElem?_eq_getElem hi
      rw [matchNonTerminal_of_fresh hmemo hspec]
      have hright' := (hright.anti hlt.le).enter
      have hfollows : RecursionFollows p g (level p g place i) (p.matchNonTerminal depth)
          (p.unmemoised depth) := fun j q hj hq hjq =>
        follows_matchNonTerminal hp hg hj hq (by omega) (by omega) hjq
      have hrecur : RecursionExplores p g (level p g place i) (p.matchNonTerminal depth) :=
        fun j q hj hq hjq => ih hj hq (by omega) hjq
      have htracks := follows_expand hp hg hfollows hle hspec (Nat.le_of_lt_succ hdepth) _ hright'
      have hexpand := explores_expand hp hg hfollows hrecur (hp.rulesOf_ne_nil hground hi) hle hspec
        _ hright' (hst.enter hlt)
      rw [State.tried_enter] at hexpand
      rcases hout : p.expand (p.matchNonTerminal depth)
        p.grammar.nonTerminals[i] place (st.enter place i) with ⟨step | _ | e, st'⟩ <;>
        rw [hout] at htracks hexpand
      · obtain ⟨htried, hcovered⟩ := hexpand
        exact ⟨htried,
          hst.remember (some step) hcovered htried htracks.furthest_le htracks.outside nofun⟩
      · obtain ⟨htried, hstopped⟩ := hexpand
        have hcovered := hst.remember none hstopped.toCovered htried htracks.furthest_le
          htracks.outside fun _ => hstopped.toPassed
        exact ⟨htried, hcovered, hstopped.le_furthest, hstopped.nonempty⟩
      · exact ⟨hexpand.1, trivial⟩

theorem isGreatest_tried_of_missed (hp : g.CompilesTo p.grammar) (hg : g.Acyclic)
    (hground : g.Grounded) (h : p.run.1 = .missed) :
    IsGreatest p.run.2.tried p.run.2.furthest := by
  have hi := hp.lt_size hp.start
  have hright : Faithful p g p.depth {} := fun place i answer _ hmemo => by simp at hmemo
  have hempty : Covered p g p.depth 0 {} :=
    ⟨nofun, .inl rfl, fun q j _ hmemo => by simp at hmemo⟩
  have hexplores := explores_matchNonTerminal hp hg hground hi (Nat.zero_le _)
    (level_lt_depth hp hg 0 hi) (level_lt_depth hp hg 0 hi) {} hright hempty
  have hstopped := hexplores.2
  unfold run at h ⊢
  rw [h] at hstopped
  exact hstopped.isGreatest

end Problem

variable {g : Grammar V} {lexer : Lexer} {p : Parser V}

/-- The token of a failure stands at the last place at which a terminal was tried, whether it
matched or not, or it is the last token. The error for a value is about that token. -/
theorem failed_furthest [OfToken V] (hp : ofGrammar g lexer = .ok p) (hg : g.Acyclic)
    (hground : g.Grounded) (source : Source) (t : Token)
    (h : p.parse source = .ok (.failed t)) :
    ∃ tokens furthest, p.tokens source = .ok tokens ∧
      IsGreatest (Problem.mk p.grammar tokens.toArray).run.2.tried furthest ∧
        tokens[min furthest (tokens.length - 1)]? = some t ∧
          p.parseValue source = .error {
            cause := .noMatch t.descriptor
            marker := some t.marker
            source := some source } := by
  obtain ⟨tokens, htokens, hmissed, ht⟩ := missed_of_failed h
  obtain ⟨c, hc, rfl⟩ := ofGrammar_eq_ok_iff.1 hp
  have hgreatest := Problem.isGreatest_tried_of_missed (p := ⟨c, tokens.toArray⟩)
    (Grammar.compilesTo_of_compile hc) hg hground hmissed
  refine ⟨tokens, _, htokens, hgreatest, ?_, ?_⟩
  · simpa [Problem.tokenAt] using ht
  · unfold parseValue
    rw [h]
    rfl

/-- Names, and behind them a number or a string. -/
def trailed : Grammar Value where
  start := "item"
  rules :=
    let list : Option (Reducer Value) := some fun _ values => pure (.list values)
    [{ lhs := "item", rhs := [.nonTerminal "names", .terminal .number], reducer := list },
      { lhs := "item", rhs := [.nonTerminal "names", .terminal .string], reducer := list },
      { lhs := "names", rhs := [.terminal .name] },
      { lhs := "names", rhs := [.nonTerminal "names", .terminal .name], reducer := list }]

theorem failed_furthest_trailed :
    ∃ lexer, Lexer.ofConfig .bare = .ok lexer ∧ ∃ p, ofGrammar trailed lexer = .ok p ∧
      trailed.Acyclic ∧ trailed.Grounded ∧ ∃ t, p.parse ⟨"", "x y"⟩ = .ok (.failed t) ∧
        t.kind = .eof ∧ ∃ tokens furthest, p.tokens ⟨"", "x y"⟩ = .ok tokens ∧
          IsGreatest (Problem.mk p.grammar tokens.toArray).run.2.tried furthest ∧
            tokens[min furthest (tokens.length - 1)]? = some t ∧
              p.parseValue ⟨"", "x y"⟩ = .error {
                cause := .noMatch t.descriptor
                marker := some t.marker
                source := some ⟨"", "x y"⟩ } := by
  obtain ⟨lexer, hlexer, p, hp, hplain⟩ :
      ∃ lexer, Lexer.ofConfig .bare = .ok lexer ∧ ∃ p, ofGrammar trailed lexer = .ok p ∧
        ((p.plain ⟨"", "x y"⟩).bind failureOf?).map (·.kind) = some .eof := by
    decide +kernel
  have hacyclic : trailed.Acyclic :=
    Grammar.acyclic_of_descends (fun name => if name = "item" then 1 else 0) (by decide)
  have hground : trailed.Grounded := by
    unfold Grammar.Grounded
    simp [trailed, Rule.isLeftRecursive]
  obtain ⟨t, hparse, hkind⟩ := failed_of_plain hp hacyclic hplain
  exact ⟨lexer, hlexer, p, hp, hacyclic, hground, t, hparse, hkind,
    failed_furthest hp hacyclic hground _ t hparse⟩

end Parser

end Packrat
