import Packrat.Proofs.Grammar.Valid
import Packrat.Proofs.Parser.Diagnostics
import Packrat.Proofs.Parser.Memo

/-! What a run goes to by number. A watched run does what the run does, and notes each place of the
memo table, each rule, non-terminal and token that it goes to on the way. All of them exist. -/

namespace Packrat.Parser

variable {V α β : Type}

inductive Access : Type
  | asked (slot : Slot) (place : Nat) : Access
  | matched (place next : Nat) : Access
  | entry (place nonTerminal : Nat) : Access
  | nonTerminal (number : Nat) : Access
  | rule (number : Nat) : Access
  /-- The symbols of a rule behind the first one, of so many. -/
  | behindFirst (symbols : Nat) : Access
  | token (place : Nat) : Access
  | slice (start stop : Nat) : Access
  /-- The value of a rule without reducer, of so many. -/
  | onlyValue (values : Nat) : Access

/-- What is gone to exists. A memo table has an entry for each non-terminal at each place, the one
behind the last token included. -/
def Access.Within (p : Problem V) : Access → Prop
  | asked slot place => place ≤ p.tokens.size ∧
      ∀ i, slot = .nonTerminal i → i < p.grammar.nonTerminals.size
  | matched place next => place < next ∧ next ≤ p.tokens.size
  | entry place i => place < p.tokens.size + 1 ∧ i < p.grammar.nonTerminals.size
  | nonTerminal i => i < p.grammar.nonTerminals.size
  | rule k => k < p.grammar.rules.size
  | behindFirst symbols => 0 < symbols
  | token place => min place (p.tokens.size - 1) < p.tokens.size
  | slice start stop => start < stop ∧ stop ≤ p.tokens.size
  | onlyValue values => 0 < values

def Access.ofRequired (rule : CompiledRule V) (slot : Slot) (place furthest : Nat) : List Access :=
  let named : List Access := match slot with
    | .nonTerminal i => [.nonTerminal rule.lhs, .nonTerminal i]
    | .terminal _ => [.nonTerminal rule.lhs]
  .token place :: named ++ if furthest ≤ place then [] else [.token furthest]

abbrev Watch (V α : Type) : Type := State V → (Answer α × State V) × List Access

namespace Watch

def of (x : Attempt V α) : Watch V α := fun st => (x st, [])

def note (accesses : List Access) (x : Watch V α) : Watch V α :=
  fun st => ((x st).1, accesses ++ (x st).2)

def andElse (x : Watch V α) (onFound : α → Watch V β) (onMissed : Watch V β) : Watch V β :=
  fun st => match x st with
    | ((.found a, st), accesses) => note accesses (onFound a) st
    | ((.missed, st), accesses) => note accesses onMissed st
    | ((.broken e, st), accesses) => ((.broken e, st), accesses)

def plain (x : Watch V α) : Attempt V α := fun st => (x st).1

@[simp] theorem plain_of (x : Attempt V α) : (of x).plain = x := rfl

@[simp] theorem plain_note (accesses : List Access) (x : Watch V α) :
    (note accesses x).plain = x.plain := rfl

@[simp] theorem plain_andElse (x : Watch V α) (f : α → Watch V β) (m : Watch V β) :
    (x.andElse f m).plain = x.plain.andElse (fun a => (f a).plain) m.plain := by
  funext st
  simp only [plain, andElse, Attempt.andElse]
  rcases x st with ⟨⟨a | _ | e, st'⟩, accesses⟩ <;> rfl

end Watch

namespace Problem

def watchEscalate (p : Problem V) (rule : CompiledRule V) (soft : Bool) (slot : Slot)
    (place : Nat) : Watch V α := fun st =>
  let accesses :=
    if rule.failHard && !soft then Access.ofRequired rule slot place st.furthest else []
  (p.escalate rule soft slot place st, accesses)

def watchReduce (p : Problem V) (rule : CompiledRule V) (start stop : Nat) (values : List V) :
    Watch V (Step V) :=
  .note (.slice start stop :: .nonTerminal rule.lhs ::
      if rule.reducer.isNone then [.onlyValue values.length] else [])
    (.of (p.reduce rule start stop values))

section

variable [OfToken V]

def watchSymbol (p : Problem V) (recur : Nat → Nat → Watch V (Step V)) (slot : Slot) (place : Nat) :
    Watch V (Step V) :=
  match slot with
  | .nonTerminal i => recur i place
  | .terminal kind => .of (p.matchSlot (fun _ _ => Attempt.missed) (.terminal kind) place)

def watchSlot (p : Problem V) (recur : Nat → Nat → Watch V (Step V)) (slot : Slot) (place : Nat) :
    Watch V (Step V) :=
  .note [.asked slot place] ((p.watchSymbol recur slot place).andElse
    (fun step => .note [.matched place step.next] (.of (Attempt.found step))) (.of Attempt.missed))

def watchSequence (p : Problem V) (recur : Nat → Nat → Watch V (Step V)) (rule : CompiledRule V) :
    Bool → List Slot → Nat → Watch V (List V × Nat)
  | _, [], place => .of (Attempt.found ([], place))
  | soft, slot :: rest, place =>
    (p.watchSlot recur slot place).andElse
      (fun step => (p.watchSequence recur rule false rest step.next).andElse
        (fun x => .of (Attempt.found (step.value :: x.1, x.2))) (.of Attempt.missed))
      (p.watchEscalate rule soft slot place)

def watchChoice (p : Problem V) (recur : Nat → Nat → Watch V (Step V)) (place : Nat)
    (base : Option (Step V)) : List Nat → Watch V (Step V)
  | [] => .of Attempt.missed
  | k :: rest =>
    match p.grammar.rules[k]? with
    | none => .note [.rule k] (p.watchChoice recur place base rest)
    | some rule =>
      .note (.rule k :: if base.isSome then [.behindFirst rule.rhs.length] else [])
        ((p.watchSequence recur rule base.isSome (slotsBehind base rule)
            (startBehind base place)).andElse
          (fun x => p.watchReduce rule place x.2 ((base.map (·.value)).toList ++ x.1))
          (p.watchChoice recur place base rest))

def watchGrow (p : Problem V) (recur : Nat → Nat → Watch V (Step V)) (place : Nat)
    (numbers : List Nat) : Nat → Step V → Watch V (Step V)
  | 0, base => .of (Attempt.found base)
  | fuel + 1, base =>
    (p.watchChoice recur place (some base) numbers).andElse
      (p.watchGrow recur place numbers fuel) (.of (Attempt.found base))

def watchExpand (p : Problem V) (recur : Nat → Nat → Watch V (Step V)) (spec : NonTerminal)
    (place : Nat) : Watch V (Step V) :=
  (p.watchChoice recur place none spec.ordinary).andElse
    (fun base => p.watchGrow recur place spec.leftRecursive (p.tokens.size + 1 - base.next) base)
    (.of Attempt.missed)

def watchNonTerminal (p : Problem V) : Nat → Nat → Nat → Watch V (Step V)
  | 0, _, _ => .of Attempt.missed
  | depth + 1, i, place => .note [.entry place i, .nonTerminal i] fun st =>
    match st.memo[(place, i)]? with
    | some answer => ((.ofOption answer, st), [])
    | none =>
      match p.grammar.nonTerminals[i]? with
      | none => ((.missed, st), [])
      | some spec =>
        let (out, accesses) :=
          p.watchExpand (p.watchNonTerminal depth) spec place (st.enter place i)
        (State.keep place i out, .entry place i :: accesses)

def watch (p : Problem V) (depth : Nat) : (Answer (Step V) × State V) × List Access :=
  p.watchSlot (p.watchNonTerminal depth) (.nonTerminal p.grammar.start) 0 {}

/-! ## A watched run does what the run does -/

variable {p : Problem V} {recur : Nat → Nat → Watch V (Step V)}

theorem plain_watchSlot (slot : Slot) (place : Nat) :
    (p.watchSlot recur slot place).plain =
      p.matchSlot (fun i place => (recur i place).plain) slot place := by
  simp only [watchSlot, Watch.plain_note, Watch.plain_andElse, Watch.plain_of,
    Attempt.andElse_found_missed]
  cases slot <;> rfl

theorem plain_watchSequence (rule : CompiledRule V) (soft : Bool) (slots : List Slot)
    (place : Nat) :
    (p.watchSequence recur rule soft slots place).plain =
      p.sequence (fun i place => (recur i place).plain) rule soft slots place := by
  induction slots generalizing soft place with
  | nil => rfl
  | cons slot rest ih =>
    simp only [watchSequence, Watch.plain_andElse, plain_watchSlot, ih]
    rfl

theorem plain_watchChoice (place : Nat) (base : Option (Step V)) (numbers : List Nat) :
    (p.watchChoice recur place base numbers).plain =
      p.choice (fun i place => (recur i place).plain) place base
        (numbers.filterMap (p.grammar.rules[·]?)) := by
  induction numbers with
  | nil => rfl
  | cons k rest ih =>
    rw [watchChoice]
    cases hk : p.grammar.rules[k]? with
    | none => rw [List.filterMap_cons_none hk, ← ih, Watch.plain_note]
    | some rule =>
      rw [List.filterMap_cons_some hk, choice, ← ih, ← plain_watchSequence, Watch.plain_note,
        Watch.plain_andElse]
      rfl

theorem plain_watchGrow (place : Nat) (numbers : List Nat) (fuel : Nat) (base : Step V) :
    (p.watchGrow recur place numbers fuel base).plain =
      p.grow (fun i place => (recur i place).plain) place
        (numbers.filterMap (p.grammar.rules[·]?)) fuel base := by
  induction fuel generalizing base with
  | zero => rfl
  | succ fuel ih =>
    simp only [watchGrow, Watch.plain_andElse, plain_watchChoice, ih]
    rfl

theorem plain_watchExpand (spec : NonTerminal) (place : Nat) :
    (p.watchExpand recur spec place).plain =
      p.expand (fun i place => (recur i place).plain) spec place := by
  simp only [watchExpand, Watch.plain_andElse, plain_watchChoice, plain_watchGrow,
    expand_eq_numbers]
  rfl

theorem plain_watchNonTerminal (depth : Nat) :
    (fun i place => (p.watchNonTerminal depth i place).plain) = p.matchNonTerminal depth := by
  induction depth with
  | zero => rfl
  | succ depth ih =>
    funext i place st
    have hexpand (spec : NonTerminal) (st : State V) :
        (p.watchExpand (p.watchNonTerminal depth) spec place st).1 =
          p.expand (p.matchNonTerminal depth) spec place st := by
      rw [← ih, ← plain_watchExpand, Watch.plain]
    rw [watchNonTerminal, Watch.plain_note, Watch.plain]
    cases hmemo : st.memo[(place, i)]? with
    | some answer => rw [matchNonTerminal_of_kept hmemo]
    | none =>
      cases hspec : p.grammar.nonTerminals[i]? with
      | none =>
        rw [matchNonTerminal_succ, hmemo]
        dsimp only
        rw [hspec]
      | some spec => rw [matchNonTerminal_of_fresh hmemo hspec, ← hexpand]

theorem plain_watch (p : Problem V) : (p.watch p.depth).1 = p.run := by
  have h : (p.watch p.depth).1 =
    (p.watchSlot (p.watchNonTerminal p.depth) (.nonTerminal p.grammar.start) 0).plain {} := rfl
  rw [h, plain_watchSlot, plain_watchNonTerminal]
  rfl

end

/-! ## What it goes to exists -/

def Bounded (p : Problem V) (st : State V) : Prop :=
  ∀ (place i : Nat) (step : Step V), st.memo[(place, i)]? = some (some step) →
    Advances p place step

inductive BreaksWith (p : Problem V) : Error → Prop
  | required {rule : CompiledRule V} (hrule : rule ∈ p.grammar.rules.toList)
      (hhard : rule.failHard = true) (slot : Slot) (place furthest : Nat) :
      BreaksWith p (p.required rule slot place furthest)
  | reducer {rule : CompiledRule V} (hrule : rule ∈ p.grammar.rules.toList) {f : Reducer V}
      (hf : rule.reducer = some f) {start stop : Nat} (hlt : start < stop)
      (hle : stop ≤ p.tokens.size) {values : List V} {e : Error}
      (h : f (p.context rule.lhs start stop) values = .error e) : BreaksWith p e

variable {p : Problem V} {st st' : State V}

theorem Bounded.of_memo_eq (h : Bounded p st) (hmemo : st'.memo = st.memo) : Bounded p st' :=
  fun place i step hkept => h place i step (hmemo ▸ hkept)

theorem Bounded.remember (h : Bounded p st) {place : Nat} (i : Nat) {answer : Option (Step V)}
    (hanswer : ∀ step, answer = some step → Advances p place step) :
    Bounded p (st.remember place i answer) := by
  intro q j step hkept
  obtain ⟨rfl, -, hstep⟩ | hbefore := State.kept_remember hkept
  · exact hanswer step hstep
  · exact h q j step hbefore

theorem Bounded.enter (h : Bounded p st) (place i : Nat) : Bounded p (st.enter place i) := by
  have hentered : Bounded p (st.record (.entered i place)) := h.of_memo_eq rfl
  exact hentered.remember i nofun

/-- What a part of a match comes to from a bounded state: the state is bounded, what is found is as
`R` says, an error is one of those above, and all that it goes to exists. -/
structure Stayed (p : Problem V) (R : α → Prop) (out : (Answer α × State V) × List Access) :
    Prop where
  bounded : Bounded p out.1.2
  found (a : α) : out.1.1 = .found a → R a
  broken (e : Error) : out.1.1 = .broken e → BreaksWith p e
  within : ∀ access ∈ out.2, access.Within p

theorem Stayed.of_missed (h : Bounded p st) {R : α → Prop} : Stayed p R ((.missed, st), []) where
  bounded := h
  found := nofun
  broken _ heq := by cases heq
  within := List.forall_mem_nil _

theorem Stayed.of_found (h : Bounded p st) {R : α → Prop} {a : α} (ha : R a) :
    Stayed p R ((.found a, st), []) where
  bounded := h
  found _ heq := by cases heq; exact ha
  broken _ heq := by cases heq
  within := List.forall_mem_nil _

theorem Stayed.keep {place : Nat} {out : (Answer (Step V) × State V) × List Access}
    (h : Stayed p (Advances p place) out) (i : Nat) :
    Stayed p (Advances p place) (State.keep place i out.1, out.2) := by
  obtain ⟨⟨answer, st⟩, accesses⟩ := out
  obtain ⟨hst, hfound, hbroken, hwithin⟩ := h
  cases answer with
  | found step =>
    refine ⟨hst.remember i ?_, hfound, (fun _ heq => nomatch heq), hwithin⟩
    rintro _ ⟨⟩
    exact hfound step rfl
  | missed => exact ⟨hst.remember i nofun, nofun, (fun _ heq => nomatch heq), hwithin⟩
  | broken e => exact ⟨hst, nofun, hbroken, hwithin⟩

def Stays (p : Problem V) (R : α → Prop) (x : Watch V α) : Prop :=
  ∀ st, Bounded p st → Stayed p R (x st)

namespace Stays

variable {R : α → Prop} {S : β → Prop}

theorem found {a : α} (h : R a) : Stays p R (.of (Attempt.found a)) := fun _ hst => .of_found hst h

theorem missed : Stays p R (.of Attempt.missed) := fun _ hst => .of_missed hst

theorem note {accesses : List Access} {x : Watch V α}
    (hwithin : ∀ access ∈ accesses, access.Within p) (h : Stays p R x) :
    Stays p R (.note accesses x) := fun st hst =>
  have hx := h st hst
  { hx with within := List.forall_mem_append.2 ⟨hwithin, hx.within⟩ }

theorem andElse {x : Watch V α} {f : α → Watch V β} {m : Watch V β} (hx : Stays p R x)
    (hf : ∀ a, R a → Stays p S (f a)) (hm : Stays p S m) : Stays p S (x.andElse f m) := by
  intro st hst
  obtain ⟨hst', hfound, hbroken, hwithin⟩ := hx st hst
  unfold Watch.andElse
  rcases hout : x st with ⟨⟨a | _ | e, mid⟩, accesses⟩ <;> rw [hout] at hst' hfound hbroken hwithin
  · exact (hf a (hfound a rfl)).note hwithin mid hst'
  · exact hm.note hwithin mid hst'
  · exact ⟨hst', nofun, fun _ heq => by cases heq; exact hbroken e rfl, hwithin⟩

end Stays

theorem within_token (hpos : 0 < p.tokens.size) (place : Nat) : (Access.token place).Within p := by
  unfold Access.Within
  omega

section

variable {g : Grammar V} (hp : g.CompilesTo p.grammar) (hpos : 0 < p.tokens.size)
  {rule : CompiledRule V} (hrule : rule ∈ p.grammar.rules.toList)

include hp hrule

theorem within_lhs : (Access.nonTerminal rule.lhs).Within p := by
  obtain ⟨r, -, hr⟩ := hp.exists_rule hrule
  exact hp.lt_size hr.lhs

theorem stays_reduce {start stop : Nat} (hlt : start < stop) (hle : stop ≤ p.tokens.size)
    {values : List V} (hvalues : values ≠ []) :
    Stays p (fun step => step.next = stop) (p.watchReduce rule start stop values) := by
  have honly : (Access.onlyValue values.length).Within p := List.length_pos_iff.2 hvalues
  refine .note (List.forall_mem_cons.2 ⟨⟨hlt, hle⟩,
    List.forall_mem_cons.2 ⟨within_lhs hp hrule, ?_⟩⟩) ?_
  · split
    · exact List.forall_mem_singleton.2 honly
    · exact List.forall_mem_nil _
  · intro st hst
    unfold Watch.of reduce
    dsimp only
    split
    · next f hf =>
      have hreduced : Bounded p (st.record (.reduced rule.lhs start stop)) := hst.of_memo_eq rfl
      split
      · exact .of_found hreduced rfl
      · next e he =>
        refine ⟨hreduced, nofun, fun _ heq => ?_, List.forall_mem_nil _⟩
        cases heq
        exact .reducer hrule hf hlt hle he
    · rw [List.getLast?_eq_getLast_of_ne_nil hvalues]
      exact .of_found hst rfl

include hpos

theorem within_ofRequired {slot : Slot}
    (hslot : ∀ i, slot = .nonTerminal i → i < p.grammar.nonTerminals.size) (place furthest : Nat) :
    ∀ access ∈ Access.ofRequired rule slot place furthest, access.Within p := by
  have hlhs := within_lhs hp hrule
  unfold Access.ofRequired
  refine List.forall_mem_append.2 ⟨List.forall_mem_cons.2 ⟨within_token hpos place, ?_⟩, ?_⟩
  · cases slot with
    | nonTerminal i =>
      exact List.forall_mem_cons.2 ⟨hlhs, List.forall_mem_singleton.2 (hslot i rfl)⟩
    | terminal kind => exact List.forall_mem_singleton.2 hlhs
  · split
    · exact List.forall_mem_nil _
    · exact List.forall_mem_singleton.2 (within_token hpos furthest)

theorem stays_escalate {R : α → Prop} (soft : Bool) {slot : Slot}
    (hslot : ∀ i, slot = .nonTerminal i → i < p.grammar.nonTerminals.size) (place : Nat) :
    Stays p R (p.watchEscalate rule soft slot place) := by
  intro st hst
  unfold watchEscalate escalate
  dsimp only
  split
  · next hhard =>
    refine ⟨hst, nofun, fun _ heq => ?_, within_ofRequired hp hpos hrule hslot place st.furthest⟩
    cases heq
    exact .required hrule (Bool.and_eq_true_iff.1 hhard).1 slot place st.furthest
  · exact .of_missed hst

end

section

variable [OfToken V] {recur : Nat → Nat → Watch V (Step V)}

def RecursionStays (p : Problem V) (recur : Nat → Nat → Watch V (Step V)) : Prop :=
  ∀ i place, i < p.grammar.nonTerminals.size → place ≤ p.tokens.size →
    Stays p (Advances p place) (recur i place)

theorem stays_slot (hrecur : RecursionStays p recur) {slot : Slot} {place : Nat}
    (hle : place ≤ p.tokens.size)
    (hslot : ∀ i, slot = .nonTerminal i → i < p.grammar.nonTerminals.size) :
    Stays p (Advances p place) (p.watchSlot recur slot place) := by
  have hsymbol : Stays p (Advances p place) (p.watchSymbol recur slot place) := by
    cases slot with
    | nonTerminal i => exact hrecur i place (hslot i rfl) hle
    | terminal kind =>
      intro st hst
      obtain ⟨hmemo, -, hfound⟩ := p.matchSlot_terminal (fun _ _ => Attempt.missed) kind place st
      refine ⟨hst.of_memo_eq hmemo, fun step hstep => ?_, fun e he => ?_, List.forall_mem_nil _⟩
      · obtain ⟨hlt, hnext⟩ := hfound step hstep
        exact ⟨hnext ▸ Nat.lt_succ_self place, hnext ▸ hlt⟩
      · exact absurd he (p.matchSlot_terminal_ne_broken (fun _ _ => Attempt.missed) kind place st e)
  refine .note (List.forall_mem_singleton.2 ⟨hle, hslot⟩) (hsymbol.andElse ?_ .missed)
  exact fun step hstep => .note (List.forall_mem_singleton.2 hstep) (.found hstep)

variable {g : Grammar V} (hp : g.CompilesTo p.grammar) (hpos : 0 < p.tokens.size)

include hp hpos

theorem stays_sequence (hrecur : RecursionStays p recur) {rule : CompiledRule V}
    (hrule : rule ∈ p.grammar.rules.toList) (soft : Bool) {slots : List Slot} {place : Nat}
    (hle : place ≤ p.tokens.size) (hslots : slots ⊆ rule.rhs) :
    Stays p (fun x => place + slots.length ≤ x.2 ∧ x.2 ≤ p.tokens.size ∧
      x.1.length = slots.length) (p.watchSequence recur rule soft slots place) := by
  induction slots generalizing soft place with
  | nil => exact .found ⟨Nat.le_refl _, hle, rfl⟩
  | cons slot rest ih =>
    obtain ⟨hmem, hrest⟩ := List.cons_subset.1 hslots
    have hslot (i : Nat) (h : slot = .nonTerminal i) := hp.slot_lt_size hrule (h ▸ hmem)
    refine (stays_slot hrecur hle hslot).andElse ?_ (stays_escalate hp hpos hrule soft hslot place)
    rintro step ⟨hlt, hnext⟩
    refine (ih false hnext hrest).andElse ?_ .missed
    rintro ⟨values, stop⟩ ⟨hlen, hstop, hvalues⟩
    refine .found ⟨?_, hstop, congrArg (· + 1) hvalues⟩
    rw [List.length_cons]
    dsimp only at hlen ⊢
    omega

theorem stays_choice (hrecur : RecursionStays p recur) {place : Nat} (base : Option (Step V))
    (hbase : ∀ step, base = some step → Advances p place step) (hle : place ≤ p.tokens.size)
    {numbers : List Nat} (hnumbers : ∀ k ∈ numbers, k < p.grammar.rules.size)
    (hne : ∀ rule ∈ numbers.filterMap (p.grammar.rules[·]?), slotsBehind base rule ≠ []) :
    Stays p (Advances p (startBehind base place)) (p.watchChoice recur place base numbers) := by
  have hstart : place ≤ startBehind base place ∧ startBehind base place ≤ p.tokens.size := by
    cases base with
    | none => exact ⟨Nat.le_refl _, hle⟩
    | some step => exact ⟨(hbase step rfl).1.le, (hbase step rfl).2⟩
  induction numbers with
  | nil => exact .missed
  | cons k rest ih =>
    obtain ⟨hk, hrest⟩ := List.forall_mem_cons.1 hnumbers
    have hget : p.grammar.rules[k]? = some p.grammar.rules[k] := Array.getElem?_eq_getElem hk
    rw [List.filterMap_cons_some hget, List.forall_mem_cons] at hne
    have hrule : p.grammar.rules[k] ∈ p.grammar.rules.toList :=
      Array.mem_toList_iff.2 (Array.getElem_mem hk)
    have hsub : slotsBehind base p.grammar.rules[k] ⊆ p.grammar.rules[k].rhs := by
      unfold slotsBehind
      split
      · exact List.tail_subset _
      · exact List.Subset.refl _
    rw [watchChoice, hget]
    refine .note (List.forall_mem_cons.2 ⟨hk, ?_⟩) ?_
    · split
      · exact List.forall_mem_singleton.2 (List.length_pos_iff.2 (hp.rhs_ne_nil hrule))
      · exact List.forall_mem_nil _
    · refine (stays_sequence hp hpos hrecur hrule base.isSome hstart.2 hsub).andElse ?_
        (ih hrest hne.2)
      rintro ⟨values, stop⟩ ⟨hlen, hstop, hvalues⟩
      dsimp only at hlen hstop hvalues
      have hslots := List.length_pos_iff.2 hne.1
      have hlt : startBehind base place < stop := by omega
      have hvalues : (base.map (·.value)).toList ++ values ≠ [] :=
        List.append_ne_nil_of_right_ne_nil _ (List.length_pos_iff.1 (hvalues ▸ hslots))
      intro st hst
      have hreduced := stays_reduce hp hrule (hstart.1.trans_lt hlt) hstop hvalues st hst
      refine { hreduced with found := fun step heq => ?_ }
      obtain rfl := hreduced.found step heq
      exact ⟨hlt, hstop⟩

theorem stays_grow (hrecur : RecursionStays p recur) {place : Nat}
    {numbers : List Nat} (hnumbers : ∀ k ∈ numbers, k < p.grammar.rules.size)
    (hne : ∀ rule ∈ numbers.filterMap (p.grammar.rules[·]?), rule.rhs.tail ≠ []) (fuel : Nat)
    {base : Step V} (hbase : Advances p place base) :
    Stays p (Advances p place) (p.watchGrow recur place numbers fuel base) := by
  induction fuel generalizing base with
  | zero => exact .found hbase
  | succ fuel ih =>
    have hle : place ≤ p.tokens.size := hbase.1.le.trans hbase.2
    have hchoice := stays_choice hp hpos hrecur (some base)
      (fun _ heq => by cases heq; exact hbase) hle hnumbers hne
    refine hchoice.andElse (fun step hstep => ih ?_) (.found hbase)
    exact ⟨hbase.1.trans hstep.1, hstep.2⟩

theorem stays_expand (htabulates : p.grammar.Tabulates g) (hrecur : RecursionStays p recur)
    {i place : Nat} {spec : NonTerminal} (hspec : p.grammar.nonTerminals[i]? = some spec)
    (hle : place ≤ p.tokens.size) :
    Stays p (Advances p place) (p.watchExpand recur spec place) := by
  -- The rule numbers that a table lists are in range, and its left-recursive rules have a
  -- symbol behind the first.
  have hnumbers : ∀ k ∈ spec.numbers, k < p.grammar.rules.size := fun k hk => by
    have hmem : spec ∈ p.grammar.nonTerminals.toList :=
      Array.mem_toList_iff.2 (Array.mem_of_getElem? hspec)
    exact List.mem_range.1 (htabulates.numbers.subset (List.mem_flatMap.2 ⟨spec, hmem, hk⟩))
  obtain ⟨hordinary, hrecursive⟩ := List.forall_mem_append.1 hnumbers
  refine (stays_choice hp hpos hrecur none nofun hle hordinary ?_).andElse ?_ .missed
  · rw [hp.ordinary hspec]
    exact fun rule hrule => hp.rhs_ne_nil (Grammar.CompilesTo.mem_rulesOf.1 hrule).1
  · intro base hbase
    refine stays_grow hp hpos hrecur hrecursive ?_ _ hbase
    rw [hp.leftRecursive hspec]
    intro rule hrule
    have hmem := Grammar.CompilesTo.mem_rulesOf.1 hrule
    exact hp.tail_ne_nil hmem.1 hmem.2.2

theorem stays_watchNonTerminal (htabulates : p.grammar.Tabulates g) (depth : Nat) :
    RecursionStays p (p.watchNonTerminal depth) := by
  induction depth with
  | zero => exact fun _ _ _ _ => .missed
  | succ depth ih =>
    intro i place hi hle
    have hentry : (Access.entry place i).Within p := ⟨Nat.lt_succ_of_le hle, hi⟩
    refine .note (List.forall_mem_cons.2 ⟨hentry, List.forall_mem_singleton.2 hi⟩) ?_
    intro st hst
    dsimp only
    split
    · next answer hmemo =>
      cases answer with
      | none => exact .of_missed hst
      | some step => exact .of_found hst (hst place i step hmemo)
    · split
      · exact .of_missed hst
      · next spec hspec =>
        have hout := stays_expand hp hpos htabulates ih hspec hle _ (hst.enter place i)
        exact { hout.keep i with within := List.forall_mem_cons.2 ⟨hentry, hout.within⟩ }

theorem stayed_watch (htabulates : p.grammar.Tabulates g) (depth : Nat) :
    Stayed p (Advances p 0) (p.watch depth) := by
  refine stays_slot (stays_watchNonTerminal hp hpos htabulates depth) (Nat.zero_le _) ?_ {} ?_
  · rintro _ ⟨⟩
    exact hp.lt_size hp.start
  · intro place i step hkept
    rw [Std.HashMap.getElem?_empty] at hkept
    cases hkept

end

end Problem

open Problem in
/-- A parser never leaves its bounds. For the tokens of a source, a run that notes what it goes to
ends as the run does, and all that it goes to exists: a symbol is matched at a place up to the end
of the tokens, and a non-terminal is one of the grammar; a match ends within the tokens, behind its
place; entries of the memo table, rules, non-terminals, tokens and slices of tokens are in range. No
slice is empty, and a rule without reducer has a value to pass on, so an error is always one of a
hard rule or of a reducer. -/
theorem within_of_tokens [OfToken V] {g : Grammar V} {lexer : Lexer} {parser : Parser V}
    (hp : ofGrammar g lexer = .ok parser) {source : Source} {tokens : List Token}
    (htokens : parser.tokens source = .ok tokens) :
    let p : Problem V := ⟨parser.grammar, tokens.toArray⟩
    (p.watch p.depth).1 = p.run ∧
      (∀ depth, ∀ access ∈ (p.watch depth).2, access.Within p) ∧
      ∀ e, p.run.1 = .broken e → p.BreaksWith e := by
  intro p
  obtain ⟨c, hc, rfl⟩ := ofGrammar_eq_ok_iff.1 hp
  have hstayed := stayed_watch (p := p) (Grammar.compilesTo_of_compile hc)
    (length_pos_of_tokens htokens) (Grammar.tabulates_of_compile hc)
  refine ⟨plain_watch p, fun depth => (hstayed depth).within, fun e he => ?_⟩
  rw [← plain_watch] at he
  exact (hstayed p.depth).broken e he

def ended : Grammar Value where
  start := "file"
  rules := [{
    lhs := "file"
    rhs := [.nonTerminal "end", .nonTerminal "end"]
    reducer := some fun _ values => pure (.list values) }, {
    lhs := "end"
    rhs := [.terminal .eof] }]

theorem within_of_tokens_ended :
    ∃ lexer, Lexer.ofConfig .bare = .ok lexer ∧ ∃ parser, ofGrammar ended lexer = .ok parser ∧
      ∃ tokens, parser.tokens ⟨"", ""⟩ = .ok tokens ∧ tokens.length = 1 ∧
        ∀ depth, ∀ access ∈ (Problem.watch ⟨parser.grammar, tokens.toArray⟩ depth).2,
          access.Within ⟨parser.grammar, tokens.toArray⟩ := by
  obtain ⟨lexer, hlexer, parser, hp, tokens, htokens, hlength⟩ :
      ∃ lexer, Lexer.ofConfig .bare = .ok lexer ∧ ∃ parser, ofGrammar ended lexer = .ok parser ∧
        ∃ tokens, parser.tokens ⟨"", ""⟩ = .ok tokens ∧ tokens.length = 1 := by
    decide +kernel
  exact ⟨lexer, hlexer, parser, hp, tokens, htokens, hlength,
    (within_of_tokens hp htokens).2.1⟩

end Packrat.Parser
