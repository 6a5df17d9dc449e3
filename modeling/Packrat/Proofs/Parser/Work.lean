import Packrat.Proofs.Parser.Course
import Packrat.Proofs.Parser.Memo
import Mathlib.Data.Finset.Prod

/-! How much work a match is. It ends, whatever left recursion a grammar has: a non-terminal is
expanded at most once at each place, and every extension of a match takes a token. So no reducer is
called twice for the same tokens of a non-terminal. -/

namespace Packrat.Parser.Problem

variable {V α β : Type} [OfToken V]

/-! ## States in which nothing has been done twice -/

section

omit [OfToken V]

/-- No non-terminal has been entered twice at a place and no tokens have been reduced to it twice.
What was entered or reduced has an entry, and the matches that are kept are steps ahead. -/
structure Orderly (p : Problem V) (st : State V) : Prop where
  entered_once (i place : Nat) : st.events.count (.entered i place) ≤ 1
  reduced_once (i start stop : Nat) : st.events.count (.reduced i start stop) ≤ 1
  entered_kept {i place : Nat} : .entered i place ∈ st.events → (place, i) ∈ st.memo
  reduced_kept {i start stop : Nat} : .reduced i start stop ∈ st.events → (start, i) ∈ st.memo
  advances {i place : Nat} {step : Step V} :
    st.memo[(place, i)]? = some (some step) → Advances p place step

open Classical in
noncomputable def fresh (p : Problem V) (st : State V) : Nat :=
  ((Finset.range (p.tokens.size + 1) ×ˢ Finset.range p.grammar.nonTerminals.size).filter
    fun key => key ∉ st.memo).card

/-- What a part of a match does to an orderly state: entries stay, and where there was one, nothing
is reduced any more. Only `own`, a non-terminal under way, is exempt from that. -/
structure Continues (p : Problem V) (own : Option (Nat × Nat)) (st st' : State V) : Prop where
  orderly : Orderly p st'
  kept {key : Nat × Nat} : key ∈ st.memo → key ∈ st'.memo
  reduced {i start stop : Nat} : (start, i) ∈ st.memo → own ≠ some (start, i) →
    .reduced i start stop ∈ st'.events → .reduced i start stop ∈ st.events

variable {p : Problem V} {own : Option (Nat × Nat)} {st st' st'' : State V}

theorem mem_memo_remember {place i : Nat} {answer : Option (Step V)} {key : Nat × Nat} :
    key ∈ (st.remember place i answer).memo ↔ key = (place, i) ∨ key ∈ st.memo := by
  unfold State.remember
  rw [Std.HashMap.mem_insert, beq_iff_eq, eq_comm]

theorem Continues.refl (h : Orderly p st) : Continues p own st st :=
  ⟨h, id, fun _ _ => id⟩

theorem Continues.trans (h : Continues p own st st') (h' : Continues p own st' st'') :
    Continues p own st st'' where
  orderly := h'.orderly
  kept hkey := h'.kept (h.kept hkey)
  reduced hkey hown hmem := h.reduced hkey hown (h'.reduced (h.kept hkey) hown hmem)

theorem Continues.weaken (h : Continues p none st st') : Continues p own st st' where
  orderly := h.orderly
  kept := h.kept
  reduced hkey _ hmem := h.reduced hkey nofun hmem

theorem fresh_le (h : Continues p own st st') : fresh p st' ≤ fresh p st := by
  refine Finset.card_le_card fun key hkey => ?_
  obtain ⟨hmem, hfresh⟩ := Finset.mem_filter.1 hkey
  exact Finset.mem_filter.2 ⟨hmem, fun hkept => hfresh (h.kept hkept)⟩

theorem fresh_enter_lt {i place : Nat} (hi : i < p.grammar.nonTerminals.size)
    (hplace : place ≤ p.tokens.size) (hfresh : (place, i) ∉ st.memo) :
    fresh p (st.enter place i) < fresh p st := by
  have mem_enter {key : Nat × Nat} :
      key ∈ (st.enter place i).memo ↔ key = (place, i) ∨ key ∈ st.memo := mem_memo_remember
  refine Finset.card_lt_card (Finset.ssubset_iff_of_subset ?_ |>.2 ⟨(place, i), ?_, ?_⟩)
  · intro key hkey
    obtain ⟨hmem, hnew⟩ := Finset.mem_filter.1 hkey
    exact Finset.mem_filter.2 ⟨hmem, fun hkept => hnew (mem_enter.2 (.inr hkept))⟩
  · have hrange : (place, i) ∈
        Finset.range (p.tokens.size + 1) ×ˢ Finset.range p.grammar.nonTerminals.size :=
      Finset.mem_product.2 ⟨Finset.mem_range.2 (Nat.lt_succ_of_le hplace), Finset.mem_range.2 hi⟩
    exact Finset.mem_filter.2 ⟨hrange, hfresh⟩
  · exact fun hkey => (Finset.mem_filter.1 hkey).2 (mem_enter.2 (.inl rfl))

theorem fresh_lt_depth (st : State V) : fresh p st < p.depth := by
  have hle := Finset.card_filter_le
    (Finset.range (p.tokens.size + 1) ×ˢ Finset.range p.grammar.nonTerminals.size)
    fun key => key ∉ st.memo
  rw [Finset.card_product, Finset.card_range, Finset.card_range] at hle
  exact Nat.lt_succ_of_le hle

theorem Continues.of_tried {place : Nat} (h : Orderly p st) (hmemo : st'.memo = st.memo)
    (hevents : st'.events = .tried place :: st.events) : Continues p own st st' where
  orderly := {
    entered_once i q := by simpa [hevents] using h.entered_once i q
    reduced_once i start stop := by simpa [hevents] using h.reduced_once i start stop
    entered_kept hmem := hmemo ▸ h.entered_kept (by simpa [hevents] using hmem)
    reduced_kept hmem := hmemo ▸ h.reduced_kept (by simpa [hevents] using hmem)
    advances hmem := h.advances (hmemo ▸ hmem) }
  kept hkey := hmemo ▸ hkey
  reduced _ _ hmem := by simpa [hevents] using hmem

structure Underway (i place stop : Nat) (st : State V) : Prop where
  kept : (place, i) ∈ st.memo
  reduced_le {later : Nat} : .reduced i place later ∈ st.events → later ≤ stop

theorem Underway.continues {i place stop : Nat} (h : Underway i place stop st)
    (hst : Continues p none st st') : Underway i place stop st' where
  kept := hst.kept h.kept
  reduced_le hmem := h.reduced_le (hst.reduced h.kept nofun hmem)

theorem Underway.mono {i place start stop : Nat} (h : Underway i place start st)
    (hle : start ≤ stop) : Underway i place stop st where
  kept := h.kept
  reduced_le hmem := (h.reduced_le hmem).trans hle

section Reduction

variable {i place start stop : Nat}

theorem Continues.reduce (hst : Orderly p st) (h : Underway i place start st) (hlt : start < stop) :
    Continues p (some (place, i)) st (st.record (.reduced i place stop)) where
  orderly := {
    entered_once j q := by simpa [State.record] using hst.entered_once j q
    reduced_once j q later := by
      rw [State.record, List.count_cons]
      split
      · next heq =>
        rw [← beq_iff_eq.1 heq]
        have hnew : .reduced i place stop ∉ st.events := fun hmem =>
          Nat.not_lt.2 (h.reduced_le hmem) hlt
        rw [List.count_eq_zero.2 hnew]
      · exact hst.reduced_once j q later
    entered_kept hmem := hst.entered_kept (by simpa [State.record] using hmem)
    reduced_kept hmem := by
      rcases List.mem_cons.1 hmem with heq | hmem
      · cases heq
        exact h.kept
      · exact hst.reduced_kept hmem
    advances := hst.advances }
  kept := id
  reduced hkey hown hmem := by
    rcases List.mem_cons.1 hmem with heq | hmem
    · cases heq
      exact absurd rfl hown
    · exact hmem

theorem Underway.reduce (h : Underway i place start st) (hle : start ≤ stop) :
    Underway i place stop (st.record (.reduced i place stop)) where
  kept := h.kept
  reduced_le hmem := by
    rcases List.mem_cons.1 hmem with heq | hmem
    · cases heq
      exact Nat.le_refl stop
    · exact (h.reduced_le hmem).trans hle

end Reduction

def Reaches (p : Problem V) (i place start : Nat) : Answer (Step V) → State V → Prop
  | .found step, st => Advances p start step ∧ Underway i place step.next st
  | .missed, st => Underway i place start st
  | .broken _, _ => True

def Works (p : Problem V) (bound : Nat) (own : Option (Nat × Nat)) (pre : State V → Prop)
    (post : Answer α → State V → Prop) (x : Attempt V α) (y : Course V α) : Prop :=
  ∀ st, Orderly p st → fresh p st < bound → pre st →
    y st = some (x st) ∧ Continues p own st (x st).2 ∧ post (x st).1 (x st).2

namespace Works

variable {bound : Nat} {pre pre' : State V → Prop} {post : Answer α → State V → Prop}
  {post' : Answer β → State V → Prop} {x : Attempt V α} {y : Course V α}

theorem still (h : ∀ st, pre st → (x st).2 = st ∧ post (x st).1 st) :
    Works p bound own pre post x (.of x) := by
  intro st hst _ hpre
  obtain ⟨hsame, hpost⟩ := h st hpre
  rw [hsame]
  exact ⟨rfl, .refl hst, hpost⟩

theorem andElse {f : α → Attempt V β} {f' : α → Course V β} {m : Attempt V β} {m' : Course V β}
    (hx : Works p bound own pre post x y)
    (hf : ∀ a, Works p bound own (post (.found a)) post' (f a) (f' a))
    (hm : Works p bound own (post .missed) post' m m')
    (hbroken : ∀ e st, post (.broken e) st → post' (.broken e) st) :
    Works p bound own pre post' (x.andElse f m) (y.andElse f' m') := by
  intro st hst hfresh hpre
  obtain ⟨hend, hcont, hpost⟩ := hx st hst hfresh hpre
  have hfresh' := (fresh_le hcont).trans_lt hfresh
  unfold Course.andElse Attempt.andElse
  rw [hend]
  rcases hout : x st with ⟨a | _ | e, st'⟩ <;> rw [hout] at hcont hpost hfresh'
  · obtain ⟨hend', hcont', hpost'⟩ := hf a st' hcont.orderly hfresh' hpost
    exact ⟨hend', hcont.trans hcont', hpost'⟩
  · obtain ⟨hend', hcont', hpost'⟩ := hm st' hcont.orderly hfresh' hpost
    exact ⟨hend', hcont.trans hcont', hpost'⟩
  · exact ⟨rfl, hcont, hbroken e st' hpost⟩

theorem mono {post' : Answer α → State V → Prop} (h : Works p bound own pre post x y)
    (hpre : ∀ st, pre' st → pre st) (hpost : ∀ a st, post a st → post' a st) :
    Works p bound own pre' post' x y := by
  intro st hst hfresh hst'
  obtain ⟨hend, hcont, ha⟩ := h st hst hfresh (hpre st hst')
  exact ⟨hend, hcont, hpost _ _ ha⟩

theorem given {c : Prop} (hc : ∀ st, pre st → c) (h : c → Works p bound own pre post x y) :
    Works p bound own pre post x y :=
  fun st hst hfresh hpre => h (hc st hpre) st hst hfresh hpre

theorem underway {i place stop : Nat} (h : Works p bound none pre post x y) (hpre : ∀ st, pre st) :
    Works p bound own (Underway i place stop) (fun a st => post a st ∧ Underway i place stop st)
      x y := by
  intro st hst hfresh hunder
  obtain ⟨hend, hcont, hpost⟩ := h st hst hfresh (hpre st)
  exact ⟨hend, hcont.weaken, hpost, hunder.continues hcont⟩

end Works

def Finds (R : α → Prop) (answer : Answer α) (_ : State V) : Prop := ∀ a, answer = .found a → R a

def Always (_ : State V) : Prop := True

variable {bound : Nat}

theorem works_escalate {R : α → Prop} (rule : CompiledRule V) (soft : Bool) (slot : Slot)
    (place : Nat) {pre : State V → Prop} :
    Works p bound own pre (Finds R) (p.escalate rule soft slot place)
      (.of (p.escalate rule soft slot place)) := by
  refine .still fun st _ => ?_
  unfold escalate
  split
  · exact ⟨rfl, nofun⟩
  · exact ⟨rfl, nofun⟩

theorem works_reduce (rule : CompiledRule V) {place start stop : Nat} (hlt : start < stop)
    (hle : stop ≤ p.tokens.size) (values : List V) :
    Works p bound (some (place, rule.lhs)) (Underway rule.lhs place start)
      (Reaches p rule.lhs place start) (p.reduce rule place stop values)
      (.of (p.reduce rule place stop values)) := by
  intro st hst _ hunder
  refine ⟨rfl, ?_⟩
  unfold reduce
  cases rule.reducer with
  | some f =>
    have hcont := Continues.reduce hst hunder hlt
    dsimp only
    cases f (p.context rule.lhs place stop) values with
    | ok v => exact ⟨hcont, ⟨hlt, hle⟩, hunder.reduce hlt.le⟩
    | error e => exact ⟨hcont, trivial⟩
  | none =>
    cases values.getLast? with
    | some v => exact ⟨.refl hst, ⟨hlt, hle⟩, hunder.mono hlt.le⟩
    | none => exact ⟨.refl hst, trivial⟩

end

section

variable {p : Problem V} {bound : Nat} {recur : Recursion V} {recur' : Nat → Nat → Course V (Step V)}

def RecursionWorks (p : Problem V) (bound : Nat) (recur : Recursion V)
    (recur' : Nat → Nat → Course V (Step V)) : Prop :=
  ∀ i place, i < p.grammar.nonTerminals.size → place ≤ p.tokens.size →
    Works p bound none Always (Finds (Advances p place)) (recur i place) (recur' i place)

theorem works_matchSlot (hrecur : RecursionWorks p bound recur recur') {slot : Slot} {place : Nat}
    (hle : place ≤ p.tokens.size)
    (hslot : ∀ j, slot = .nonTerminal j → j < p.grammar.nonTerminals.size) :
    Works p bound none Always (Finds (Advances p place)) (p.matchSlot recur slot place)
      (p.courseSlot recur' slot place) := by
  cases slot with
  | nonTerminal j => exact hrecur j place (hslot j rfl) hle
  | terminal kind =>
    intro st hst _ _
    refine ⟨rfl, ?_⟩
    unfold matchSlot
    cases ht : p.tokens[place]? with
    | none => exact ⟨.of_tried hst rfl rfl, nofun⟩
    | some t =>
      have hlt : place < p.tokens.size := (Array.getElem?_eq_some_iff.1 ht).1
      dsimp only
      split
      · refine ⟨.of_tried hst rfl rfl, ?_⟩
        rintro step ⟨⟩
        exact ⟨Nat.lt_succ_self place, hlt⟩
      · exact ⟨.of_tried hst rfl rfl, nofun⟩

theorem works_sequence (hrecur : RecursionWorks p bound recur recur') (rule : CompiledRule V)
    (soft : Bool) {slots : List Slot} {place : Nat} (hle : place ≤ p.tokens.size)
    (hslots : ∀ j, .nonTerminal j ∈ slots → j < p.grammar.nonTerminals.size) :
    Works p bound none Always
      (Finds fun x => place + slots.length ≤ x.2 ∧ x.2 ≤ p.tokens.size)
      (p.sequence recur rule soft slots place) (p.courseSequence recur' rule soft slots place) := by
  induction slots generalizing soft place with
  | nil =>
    refine .still fun st _ => ⟨rfl, ?_⟩
    rintro x ⟨⟩
    exact ⟨Nat.le_refl _, hle⟩
  | cons slot rest ih =>
    have hfirst := works_matchSlot hrecur hle fun j h => hslots j (h ▸ List.mem_cons_self)
    refine hfirst.andElse (fun step => ?_) (works_escalate rule soft slot place) fun _ _ _ => nofun
    refine .given (fun _ h => h step rfl) fun ⟨hlt, hnext⟩ => ?_
    have hrest := ih false hnext fun j hj => hslots j (List.mem_cons_of_mem _ hj)
    refine (hrest.mono (fun _ _ => trivial) fun _ _ h => h).andElse ?_ ?_ fun _ _ _ => nofun
    · rintro ⟨values, stop⟩
      refine .still fun st h => ⟨rfl, ?_⟩
      rintro x ⟨⟩
      obtain ⟨hlen, hstop⟩ := h _ rfl
      exact ⟨by rw [List.length_cons]; dsimp only at hlen ⊢; omega, hstop⟩
    · exact .still fun st _ => ⟨rfl, nofun⟩

theorem works_choice (hrecur : RecursionWorks p bound recur recur') {i place : Nat}
    (base : Option (Step V)) {rules : List (CompiledRule V)}
    (hle : startBehind base place ≤ p.tokens.size)
    (hlhs : ∀ rule ∈ rules, rule.lhs = i) (hne : ∀ rule ∈ rules, slotsBehind base rule ≠ [])
    (hslots : ∀ rule ∈ rules, ∀ j, .nonTerminal j ∈ slotsBehind base rule →
      j < p.grammar.nonTerminals.size) :
    Works p bound (some (place, i)) (Underway i place (startBehind base place))
      (Reaches p i place (startBehind base place)) (p.choice recur place base rules)
      (p.courseChoice recur' place base rules) := by
  induction rules with
  | nil => exact .still fun st h => ⟨rfl, h⟩
  | cons rule rest ih =>
    obtain ⟨rfl, hlhs⟩ := List.forall_mem_cons.1 hlhs
    obtain ⟨hfirst, hne⟩ := List.forall_mem_cons.1 hne
    obtain ⟨hslot, hslots⟩ := List.forall_mem_cons.1 hslots
    have hseq := works_sequence hrecur rule base.isSome hle hslot
    refine (hseq.underway fun _ => trivial).andElse ?_ ?_ fun _ _ _ => trivial
    · rintro ⟨values, stop⟩
      refine .given (fun _ h => h.1 _ rfl) fun ⟨hlen, hstop⟩ => ?_
      have hpos := List.length_pos_iff.2 hfirst
      have hlt : startBehind base place < stop := by dsimp only at hlen; omega
      exact (works_reduce rule hlt hstop _).mono (fun _ h => h.2) fun _ _ h => h
    · exact (ih hlhs hne hslots).mono (fun _ h => h.2) fun _ _ h => h

variable {g : Grammar V} (hp : g.CompilesTo p.grammar) {i place : Nat}

include hp

theorem works_ordinary (hrecur : RecursionWorks p bound recur recur')
    (hle : place ≤ p.tokens.size) :
    Works p bound (some (place, i)) (Underway i place place) (Reaches p i place place)
      (p.choice recur place none (p.grammar.rulesOf i false))
      (p.courseChoice recur' place none (p.grammar.rulesOf i false)) := by
  have hmem {rule} (h : rule ∈ p.grammar.rulesOf i false) := Grammar.CompilesTo.mem_rulesOf.1 h
  exact works_choice hrecur none hle (fun rule h => (hmem h).2.1)
    (fun rule h => hp.rhs_ne_nil (hmem h).1) fun rule h j hj => hp.slot_lt_size (hmem h).1 hj

theorem works_extension (hrecur : RecursionWorks p bound recur recur') {base : Step V}
    (hle : base.next ≤ p.tokens.size) :
    Works p bound (some (place, i)) (Underway i place base.next) (Reaches p i place base.next)
      (p.choice recur place (some base) (p.grammar.rulesOf i true))
      (p.courseChoice recur' place (some base) (p.grammar.rulesOf i true)) := by
  have hmem {rule} (h : rule ∈ p.grammar.rulesOf i true) := Grammar.CompilesTo.mem_rulesOf.1 h
  exact works_choice hrecur (some base) hle (fun rule h => (hmem h).2.1)
    (fun rule h => hp.tail_ne_nil (hmem h).1 (hmem h).2.2)
    fun rule h j hj => hp.slot_lt_size (hmem h).1 (List.mem_of_mem_tail hj)

theorem works_grow (hrecur : RecursionWorks p bound recur recur') {base : Step V}
    (hbase : Advances p place base) {fuel rounds : Nat} (hfuel : p.tokens.size < fuel + base.next)
    (hrounds : p.tokens.size < rounds + base.next) :
    Works p bound (some (place, i)) (Underway i place base.next) (Reaches p i place place)
      (p.grow recur place (p.grammar.rulesOf i true) fuel base)
      (p.courseGrow recur' place (p.grammar.rulesOf i true) rounds base) := by
  -- Every extension takes a token, so there are no more of them than tokens.
  induction fuel generalizing base rounds with
  | zero => exact absurd hbase.2 (by omega)
  | succ fuel ih =>
    cases rounds with
    | zero => exact absurd hbase.2 (by omega)
    | succ rounds =>
      refine (works_extension hp hrecur hbase.2).andElse ?_ ?_ fun _ _ _ => trivial
      · intro step
        refine .given (fun _ h => h.1) fun ⟨hlt, hle⟩ => ?_
        exact (ih ⟨hbase.1.trans hlt, hle⟩ (by omega) (by omega)).mono (fun _ h => h.2) fun _ _ h => h
      · exact .still fun st h => ⟨rfl, hbase, h⟩

theorem works_expand {rounds : Nat} {spec : NonTerminal} (hrounds : p.tokens.size < rounds)
    (hrecur : RecursionWorks p bound recur recur') (hle : place ≤ p.tokens.size)
    (hspec : p.grammar.nonTerminals[i]? = some spec) :
    Works p bound (some (place, i)) (Underway i place place) (Reaches p i place place)
      (p.expand recur spec place) (p.courseExpand recur' rounds i place) := by
  rw [expand_eq hp hspec]
  refine (works_ordinary hp hrecur hle).andElse ?_ (.still fun st h => ⟨rfl, h⟩) fun _ _ _ => trivial
  intro base
  refine .given (fun _ h => h.1) fun hbase => ?_
  have hnext := hbase.2
  exact (works_grow hp hrecur hbase (by omega) (by omega)).mono (fun _ h => h.2) fun _ _ h => h

end

section

omit [OfToken V]

variable {p : Problem V} {st st' st'' : State V} {i place : Nat}

theorem Orderly.enter (h : Orderly p st) (hfresh : (place, i) ∉ st.memo) :
    Orderly p (st.enter place i) where
  entered_once j q := by
    rw [State.enter, State.remember, State.record, List.count_cons]
    split
    · next heq =>
      rw [← beq_iff_eq.1 heq]
      have hnew : .entered i place ∉ st.events := fun hmem => hfresh (h.entered_kept hmem)
      rw [List.count_eq_zero.2 hnew]
    · exact h.entered_once j q
  reduced_once j start stop := by
    simpa [State.enter, State.remember, State.record] using h.reduced_once j start stop
  entered_kept hmem := by
    rw [State.enter, mem_memo_remember]
    rcases List.mem_cons.1 hmem with heq | hmem
    · cases heq
      exact .inl rfl
    · exact .inr (h.entered_kept hmem)
  reduced_kept hmem := by
    rw [State.enter, mem_memo_remember]
    exact .inr (h.reduced_kept (by simpa [State.enter, State.remember, State.record] using hmem))
  advances hmem := by
    rw [State.getElem?_memo_enter] at hmem
    split at hmem
    · cases hmem
    · exact h.advances hmem

theorem Underway.enter (h : Orderly p st) (hfresh : (place, i) ∉ st.memo) :
    Underway i place place (st.enter place i) where
  kept := mem_memo_remember.2 (.inl rfl)
  reduced_le {later} hmem := by
    have : .reduced i place later ∈ st.events := by
      simpa [State.enter, State.remember, State.record] using hmem
    exact absurd (h.reduced_kept this) hfresh

theorem Orderly.remember (h : Orderly p st) {answer : Option (Step V)}
    (hanswer : ∀ step, answer = some step → Advances p place step) :
    Orderly p (st.remember place i answer) where
  entered_once := h.entered_once
  reduced_once := h.reduced_once
  entered_kept hmem := mem_memo_remember.2 (.inr (h.entered_kept hmem))
  reduced_kept hmem := mem_memo_remember.2 (.inr (h.reduced_kept hmem))
  advances {j q step} hmem := by
    rw [State.getElem?_memo_remember] at hmem
    split at hmem
    · next heq =>
      rw [heq.1]
      exact hanswer step (Option.some.inj hmem)
    · exact h.advances hmem

theorem Continues.leave (hfresh : (place, i) ∉ st.memo)
    (h : Continues p (some (place, i)) (st.enter place i) st') : Continues p none st st' where
  orderly := h.orderly
  kept hkey := h.kept (mem_memo_remember.2 (.inr hkey))
  reduced {j start stop} hkey _ hmem := by
    have hne : some (place, i) ≠ some (start, j) := fun heq => by
      cases heq
      exact hfresh hkey
    have := h.reduced (mem_memo_remember.2 (.inr hkey)) hne hmem
    simpa [State.enter, State.remember, State.record] using this

theorem Continues.remember (h : Orderly p st) {answer : Option (Step V)}
    (hanswer : ∀ step, answer = some step → Advances p place step) :
    Continues p none st (st.remember place i answer) where
  orderly := h.remember hanswer
  kept hkey := mem_memo_remember.2 (.inr hkey)
  reduced _ _ := id

theorem Continues.keep {out : Answer (Step V) × State V} (h : Orderly p out.2)
    (hreaches : Reaches p i place place out.1 out.2) :
    Continues p none out.2 (State.keep place i out).2 ∧
      Finds (Advances p place) (State.keep place i out).1 (State.keep place i out).2 := by
  rcases out with ⟨step | _ | e, st⟩
  · refine ⟨.remember h ?_, ?_⟩
    · rintro _ ⟨⟩
      exact hreaches.1
    · rintro _ ⟨⟩
      exact hreaches.1
  · exact ⟨.remember h nofun, nofun⟩
  · exact ⟨.refl h, nofun⟩

end

variable {p : Problem V} {g : Grammar V}

omit [OfToken V] in
theorem Orderly.empty : Orderly p {} where
  entered_once _ _ := Nat.zero_le 1
  reduced_once _ _ _ := Nat.zero_le 1
  entered_kept := nofun
  reduced_kept := nofun
  advances hmem := by simp at hmem

theorem works_matchNonTerminal (hp : g.CompilesTo p.grammar) {rounds : Nat}
    (hrounds : p.tokens.size < rounds) {bound depth depth' : Nat} (hdepth : bound ≤ depth)
    (hdepth' : bound ≤ depth') :
    RecursionWorks p bound (p.matchNonTerminal depth) (p.course rounds depth') := by
  -- The depth of matching is bounded by the entries that are fresh: each expansion makes one of
  -- them.
  induction bound generalizing depth depth' with
  | zero => exact fun i place _ _ st _ hfresh => absurd hfresh (Nat.not_lt_zero _)
  | succ bound ih =>
    obtain ⟨depth, rfl⟩ := Nat.exists_eq_succ_of_ne_zero (Nat.ne_zero_of_lt hdepth)
    obtain ⟨depth', rfl⟩ := Nat.exists_eq_succ_of_ne_zero (Nat.ne_zero_of_lt hdepth')
    intro i place hi hle st hst hfresh _
    cases hmemo : st.memo[(place, i)]? with
    | some answer =>
      rw [matchNonTerminal_of_kept hmemo, course_of_kept hmemo]
      refine ⟨rfl, .refl hst, fun step hstep => hst.advances (hmemo.trans ?_)⟩
      cases answer with
      | none => cases hstep
      | some _ => cases hstep; rfl
    | none =>
      have hnew : (place, i) ∉ st.memo := by
        rw [Std.HashMap.mem_iff_isSome_getElem?, hmemo]
        exact Bool.false_ne_true
      have hspec := Array.getElem?_eq_getElem hi
      have hrecur := ih (Nat.le_of_succ_le_succ hdepth) (Nat.le_of_succ_le_succ hdepth')
      obtain ⟨hend, hcont, hreaches⟩ := works_expand hp hrounds hrecur hle hspec (st.enter place i)
        (hst.enter hnew) ((fresh_enter_lt hi hle hnew).trans_le (Nat.le_of_lt_succ hfresh))
        (.enter hst hnew)
      obtain ⟨hkeep, hfinds⟩ := Continues.keep hcont.orderly hreaches
      rw [matchNonTerminal_of_fresh hmemo hspec, course_of_fresh hmemo, hend]
      exact ⟨rfl, hcont.leave hnew |>.trans hkeep, hfinds⟩

/-- Matching ends, whatever left recursion there is in the grammar: without bounds on the extensions
of a match and on the depth it comes to the same. On the way no non-terminal is expanded twice at a
place, and no tokens are reduced twice to the same non-terminal. -/
theorem run_works_once {lexer : Lexer} (hp : g.compile lexer = .ok p.grammar) :
    (∀ rounds depth, p.tokens.size < rounds → p.depth ≤ depth →
      p.course rounds depth p.grammar.start 0 {} = some p.run) ∧
    (∀ i place, p.run.2.events.count (.entered i place) ≤ 1) ∧
    ∀ i start stop, p.run.2.events.count (.reduced i start stop) ≤ 1 := by
  have hp := Grammar.compilesTo_of_compile hp
  have hi := hp.lt_size hp.start
  have ends (rounds depth : Nat) (hrounds : p.tokens.size < rounds) (hdepth : p.depth ≤ depth) :=
    works_matchNonTerminal hp hrounds (Nat.le_refl p.depth) hdepth p.grammar.start 0 hi
      (Nat.zero_le _) {} .empty (fresh_lt_depth _) trivial
  obtain ⟨-, hcont, -⟩ := ends _ _ (Nat.lt_succ_self _) (Nat.le_refl _)
  exact ⟨fun rounds depth hrounds hdepth => (ends rounds depth hrounds hdepth).1,
    hcont.orderly.entered_once, hcont.orderly.reduced_once⟩

/-- Two non-terminals that begin with each other, and one that begins with nothing but itself. -/
def twisted : Grammar Value where
  start := "left"
  rules :=
    let pair (lhs first : String) : Rule Value := {
      lhs := lhs
      rhs := [.nonTerminal first, .terminal .name]
      reducer := some fun _ values => pure (.list values) }
    [pair "left" "right", pair "left" "deep", { lhs := "left", rhs := [.terminal .name] },
      pair "right" "left", pair "deep" "deep"]

theorem run_works_once_twisted :
    ∃ (lexer : Lexer) (c : CompiledGrammar Value), twisted.compile lexer = .ok c ∧
      ∀ tokens,
        (Problem.mk c tokens).course (tokens.size + 1) (Problem.mk c tokens).depth c.start 0 {} =
          some (Problem.mk c tokens).run ∧
        (∀ i place, (Problem.mk c tokens).run.2.events.count (.entered i place) ≤ 1) ∧
        ∀ i start stop, (Problem.mk c tokens).run.2.events.count (.reduced i start stop) ≤ 1 := by
  have compiled : ∃ c, twisted.compile {
      specs := [], pattern := .empty, groups := [], keywords := [], newlines := .keep
      kinds := Kind.categories } = .ok c := ⟨_, rfl⟩
  obtain ⟨c, hc⟩ := compiled
  refine ⟨_, c, hc, fun tokens => ?_⟩
  obtain ⟨hends, hworks⟩ := run_works_once (p := ⟨c, tokens⟩) hc
  exact ⟨hends _ _ (Nat.lt_succ_self _) (Nat.le_refl _), hworks⟩

end Packrat.Parser.Problem
