import Packrat.Proofs.Parser.Unmemoised

namespace Packrat.Parser

variable {α β V : Type}

def Answer.Holds (found : α → Prop) (missed : Prop) (broken : Error → Prop) : Answer α → Prop
  | .found a => found a
  | .missed => missed
  | .broken e => broken e

namespace Trial

/-- If the trial ends, then as said: what it finds, whether it misses, and the error in which it
ends. -/
def Ensures (x : Trial α) (found : α → Prop) (missed : Prop) (broken : Error → Prop) : Prop :=
  ∀ furthest a furthest', x furthest = some (a, furthest') → a.Holds found missed broken

namespace Ensures

variable {P : α → Prop} {Q : β → Prop} {M N : Prop} {E : Error → Prop}

theorem found {a : α} (h : P a) : (Trial.found a).Ensures P M E := by
  intro furthest b furthest' heq
  cases heq
  exact h

theorem missed (h : M) : (Trial.missed : Trial α).Ensures P M E := by
  intro furthest b furthest' heq
  cases heq
  exact h

theorem missedAt (h : M) (place : Nat) : (Trial.missedAt place : Trial α).Ensures P M E := by
  intro furthest b furthest' heq
  cases heq
  exact h

theorem broken {e : Nat → Error} (h : ∀ furthest, E (e furthest)) :
    (Trial.broken e : Trial α).Ensures P M E := by
  intro furthest b furthest' heq
  cases heq
  exact h furthest

theorem none : Ensures (fun _ => none : Trial α) P M E := by
  intro furthest b furthest' heq
  cases heq

theorem mono {x : Trial α} {P' : α → Prop} {M' : Prop} {E' : Error → Prop} (h : x.Ensures P M E)
    (hfound : ∀ a, P a → P' a) (hmissed : M → M') (hbroken : ∀ e, E e → E' e) :
    x.Ensures P' M' E' := by
  intro furthest a furthest' heq
  have ha := h _ _ _ heq
  cases a with
  | found a => exact hfound a ha
  | missed => exact hmissed ha
  | broken e => exact hbroken e ha

theorem andElse {x : Trial α} {f : α → Trial β} {m : Trial β} (hx : x.Ensures P M E)
    (hf : ∀ a, P a → (f a).Ensures Q N E) (hm : M → m.Ensures Q N E) :
    (x.andElse f m).Ensures Q N E := by
  intro furthest b furthest' heq
  unfold Trial.andElse at heq
  rcases hxa : x furthest with _ | ⟨a | _ | e, middle⟩
  · rw [hxa] at heq
    cases heq
  · rw [hxa] at heq
    exact hf a (hx _ _ _ hxa) _ _ _ heq
  · rw [hxa] at heq
    exact hm (hx _ _ _ hxa) _ _ _ heq
  · rw [hxa] at heq
    cases heq
    exact hx _ _ _ hxa

end Ensures

/-- The trial comes to the same as another, but for the last missed place. -/
def Leads (x y : Trial α) : Prop := ∀ furthest, ∃ furthest', x furthest = y furthest'

namespace Leads

variable {x y z : Trial α}

theorem refl (x : Trial α) : x.Leads x := fun furthest => ⟨furthest, rfl⟩

theorem trans (h : x.Leads y) (h' : y.Leads z) : x.Leads z := fun furthest => by
  obtain ⟨middle, hxy⟩ := h furthest
  obtain ⟨furthest', hyz⟩ := h' middle
  exact ⟨furthest', hxy.trans hyz⟩

theorem missedAt (place : Nat) : (Trial.missedAt place : Trial α).Leads .missed :=
  fun furthest => ⟨max furthest place, rfl⟩

theorem andElse (h : x.Leads y) (f : α → Trial β) (m : Trial β) :
    (x.andElse f m).Leads (y.andElse f m) := fun furthest => by
  obtain ⟨furthest', heq⟩ := h furthest
  exact ⟨furthest', by rw [Trial.andElse, Trial.andElse, heq]⟩

theorem andElse_found {a : α} (h : x.Leads (.found a)) (f : α → Trial β) (m : Trial β) :
    (x.andElse f m).Leads (f a) := h.andElse f m

theorem andElse_missed (h : x.Leads .missed) (f : α → Trial β) (m : Trial β) :
    (x.andElse f m).Leads m := h.andElse f m

theorem andElse_broken {e : Nat → Error} (h : x.Leads (.broken e)) (f : α → Trial β)
    (m : Trial β) : (x.andElse f m).Leads (.broken e) := h.andElse f m

end Leads

def Settles (x : Trial α) (E : Error → Prop) (v : Option β) (y : β → Trial α) : Prop :=
  match v with
  | some b => x.Leads (y b)
  | none => ∃ e, E e ∧ x.Leads (.broken fun _ => e)

namespace Settles

variable {γ : Type} {x z : Trial α} {E : Error → Prop} {v : Option β} {y : β → Trial α}

theorem of_leads (h : x.Leads z) (h' : z.Settles E v y) : x.Settles E v y := by
  cases v with
  | some b => exact h.trans h'
  | none =>
    obtain ⟨e, he, hz⟩ := h'
    exact ⟨e, he, h.trans hz⟩

theorem andElse {f : α → Trial γ} {m : Trial γ} {g : β → α}
    (h : x.Settles E v fun b => .found (g b)) : (x.andElse f m).Settles E v fun b => f (g b) := by
  cases v with
  | some b => exact h.andElse_found f m
  | none =>
    obtain ⟨e, he, hx⟩ := h
    exact ⟨e, he, hx.andElse_broken f m⟩

theorem bind {w : β → Option γ} {u : γ → Trial α} (h : x.Settles E v y)
    (h' : ∀ b, v = some b → (y b).Settles E (w b) u) : x.Settles E (v.bind w) u := by
  cases v with
  | some b => exact .of_leads h (h' b rfl)
  | none => exact h

theorem trans {u : β → Trial α} (h : x.Settles E v y) (h' : ∀ b, (y b).Leads (u b)) :
    x.Settles E v u := by
  cases v with
  | some b => exact Leads.trans h (h' b)
  | none => exact h

theorem map {g : γ → β} {v : Option γ} (h : x.Settles E v fun c => y (g c)) :
    x.Settles E (v.map g) y := by
  cases v with
  | some c => exact h
  | none => exact h

end Settles

end Trial

namespace Problem

open Trial

variable [OfToken V] {p : Problem V} {recur : Nat → Nat → Trial (Step V)} {rule : CompiledRule V}
  {slot : Slot} {rest : List Slot} {soft : Bool} {place : Nat} {E : Error → Prop}

theorem tryChoice_none_cons (rule : CompiledRule V) (rules : List (CompiledRule V)) :
    p.tryChoice recur place none (rule :: rules) =
      (p.trySequence recur rule false rule.rhs place).andElse
        (fun x => p.tryReduce rule place x.2 x.1) (p.tryChoice recur place none rules) := rfl

theorem tryChoice_some_cons (base : Step V) (rule : CompiledRule V)
    (rules : List (CompiledRule V)) :
    p.tryChoice recur place (some base) (rule :: rules) =
      (p.trySequence recur rule true rule.rhs.tail base.next).andElse
        (fun x => p.tryReduce rule place x.2 (base.value :: x.1))
        (p.tryChoice recur place (some base) rules) := rfl

omit [OfToken V] in
theorem tryReduce_eq {start stop : Nat} {values : List V} {f : Reducer V}
    (hreducer : rule.reducer = some f) :
    p.tryReduce rule start stop values =
      match f (p.context rule.lhs start stop) values with
      | .ok v => .found ⟨v, stop⟩
      | .error e => .broken fun _ => e := by
  unfold tryReduce
  split
  · next g hg =>
    cases hreducer.symm.trans hg
    rfl
  · next hnone _ => cases hreducer.symm.trans hnone
  · next hnone _ => cases hreducer.symm.trans hnone

section Ensures

variable {M : Prop}

theorem ensures_terminal (kind : Kind) :
    (p.trySlot recur (.terminal kind) place).Ensures
      (fun step => ∃ t, p.tokens[place]? = some t ∧ t.kind = kind ∧ step = ⟨ofToken t, place + 1⟩)
      True E := by
  rw [trySlot]
  split
  · next t ht =>
    split
    · next hkind => exact .found ⟨t, ht, hkind, rfl⟩
    · exact .missedAt trivial place
  · exact .missedAt trivial place

theorem ensures_trySequence_cons {P : Step V → Prop} {Q : List V × Nat → Prop}
    (hrule : rule.failHard = false) (hslot : (p.trySlot recur slot place).Ensures P True E)
    (hrest : ∀ step, P step → (p.trySequence recur rule false rest step.next).Ensures
      (fun x => Q (step.value :: x.1, x.2)) True E) :
    (p.trySequence recur rule soft (slot :: rest) place).Ensures Q True E := by
  rw [trySequence, hrule]
  exact hslot.andElse
    (fun step hstep => (hrest step hstep).andElse (fun x hx => .found hx) fun _ => .missed trivial)
    fun _ => .missed trivial

theorem ensures_trySequence_cons_hard {P : Step V → Prop} {Q : List V × Nat → Prop}
    (hrule : rule.failHard = true) (hslot : (p.trySlot recur slot place).Ensures P True E)
    (hrest : ∀ step, P step → (p.trySequence recur rule false rest step.next).Ensures
      (fun x => Q (step.value :: x.1, x.2)) False E)
    (hrequired : ∀ furthest, E (p.required rule slot place furthest)) :
    (p.trySequence recur rule false (slot :: rest) place).Ensures Q False E := by
  rw [trySequence, hrule]
  exact hslot.andElse (fun step hstep => (hrest step hstep).andElse (fun x hx => .found hx) False.elim)
    fun _ => .broken hrequired

theorem ensures_tryGrow {rules : List (CompiledRule V)} {Q : Step V → Prop}
    (hchoice : ∀ base, Q base → (p.tryChoice recur place (some base) rules).Ensures Q True E)
    (rounds : Nat) {base : Step V} (hbase : Q base) :
    (p.tryGrow recur place rules rounds base).Ensures Q M E := by
  induction rounds generalizing base with
  | zero => exact .none
  | succ rounds ih =>
    exact (hchoice base hbase).andElse (fun step => ih) fun _ => .found hbase

omit [OfToken V] in
theorem ensures_tryReduce {start stop : Nat} {values : List V} {f : Reducer V} {Q : Step V → Prop}
    (hreducer : rule.reducer = some f)
    (hok : ∀ context v, f context values = .ok v → Q ⟨v, stop⟩)
    (herror : ∀ context e, f context values = .error e → E e) :
    (p.tryReduce rule start stop values).Ensures Q M E := by
  rw [tryReduce_eq hreducer]
  split
  · next v hv => exact .found (hok _ v hv)
  · next e he => exact .broken fun _ => herror _ e he

end Ensures

section Leads

variable {t : Token} {kind : Kind}

theorem leads_terminal (ht : p.tokens[place]? = some t) (hkind : t.kind = kind) :
    (p.trySlot recur (.terminal kind) place).Leads (.found ⟨ofToken t, place + 1⟩) := by
  rw [trySlot, ht]
  dsimp only
  rw [if_pos hkind]
  exact .refl _

theorem leads_terminal_missed (h : ∀ t, p.tokens[place]? = some t → t.kind ≠ kind) :
    (p.trySlot recur (.terminal kind) place).Leads .missed := by
  rw [trySlot]
  split
  · next t ht =>
    rw [if_neg (h t ht)]
    exact .missedAt place
  · exact .missedAt place

theorem settles_trySequence_cons {v : Option β} {step : β → Step V} {behind : β → List V × Nat}
    (hslot : (p.trySlot recur slot place).Settles E v fun b => .found (step b))
    (hrest : ∀ b, (p.trySequence recur rule false rest (step b).next).Leads (.found (behind b))) :
    (p.trySequence recur rule soft (slot :: rest) place).Settles E v fun b =>
      .found ((step b).value :: (behind b).1, (behind b).2) := by
  rw [trySequence]
  exact hslot.andElse.trans fun b => (hrest b).andElse_found _ _

theorem settles_trySequence_last {v : Option β} {step : β → Step V}
    (hslot : (p.trySlot recur slot place).Settles E v fun b => .found (step b)) :
    (p.trySequence recur rule soft [slot] place).Settles E v fun b =>
      .found ([(step b).value], (step b).next) := by
  have hrest (b : β) : (p.trySequence recur rule false [] (step b).next).Leads
      (.found ([], (step b).next)) := .refl _
  exact settles_trySequence_cons hslot hrest

theorem leads_trySequence_last {step : Step V}
    (hslot : (p.trySlot recur slot place).Leads (.found step)) :
    (p.trySequence recur rule soft [slot] place).Leads (.found ([step.value], step.next)) :=
  hslot.andElse_found _ _

theorem settles_trySequence_behind {v : Option β} {step : Step V} {behind : β → List V × Nat}
    (hslot : (p.trySlot recur slot place).Leads (.found step))
    (hrest : (p.trySequence recur rule false rest step.next).Settles E v fun b =>
      .found (behind b)) :
    (p.trySequence recur rule soft (slot :: rest) place).Settles E v fun b =>
      .found (step.value :: (behind b).1, (behind b).2) :=
  .of_leads (hslot.andElse_found _ _) hrest.andElse

theorem leads_trySequence_missed (hrule : rule.failHard = false)
    (hslot : (p.trySlot recur slot place).Leads .missed) :
    (p.trySequence recur rule soft (slot :: rest) place).Leads .missed := by
  rw [trySequence, hrule]
  exact hslot.andElse_missed _ _

end Leads

end Problem

end Packrat.Parser
