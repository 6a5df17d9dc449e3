import Packrat.Proofs.Calc.Compiled
import Packrat.Proofs.Parser.Trial

namespace Packrat.Calc

open Packrat.Parser Trial Problem

variable {tokens : List Token} {l : Level} {place : Nat} {recur : Nat → Nat → Trial (Step Value)}

def Stands (tokens : List Token) (l : Level) (place : Nat) (step : Step Value) : Prop :=
  ∃ e x ts, Yields l e ts ∧ e.value? = some x ∧ step.value = .number x ∧
    tokens.drop place = ts ++ tokens.drop step.next

variable {rules : List (CompiledRule Value)}

abbrev Sound (tokens : List Token) (l : Level) (place : Nat) (x : Trial (Step Value)) : Prop :=
  x.Ensures (Stands tokens l place) True DividesByZero

theorem sound_passing
    (hrecur : Sound tokens l.tighter place (recur l.tighter.index place))
    (hrules : Sound tokens l place ((problem tokens).tryChoice recur place none rules)) :
    Sound tokens l place ((problem tokens).tryChoice recur place none (passing l :: rules)) := by
  rw [tryChoice_none_cons]
  refine Ensures.andElse (M := True)
    (P := fun x => ∃ v, x.1 = [v] ∧ Stands tokens l place ⟨v, x.2⟩) ?_ ?_ fun _ => hrules
  · refine ensures_trySequence_cons rfl hrecur fun step hstep => .found ⟨step.value, rfl, ?_⟩
    obtain ⟨e, x, ts, hyields, hrest⟩ := hstep
    exact ⟨e, x, ts, .loosen hyields, hrest⟩
  · rintro ⟨values, next⟩ ⟨v, rfl, hstands⟩
    exact .found hstands

theorem sound_signed (s : Sign)
    (hrecur : ∀ place, Sound tokens .unary place (recur Level.unary.index place))
    (hrules : Sound tokens .unary place ((problem tokens).tryChoice recur place none rules)) :
    Sound tokens .unary place ((problem tokens).tryChoice recur place none (signed s :: rules)) := by
  rw [tryChoice_none_cons]
  refine Ensures.andElse (M := True) (P := fun x => ∃ v y, x.1 = [v, .number y] ∧
    Stands tokens .unary place ⟨.number (s.apply y), x.2⟩) ?_ ?_ fun _ => hrules
  · refine ensures_trySequence_cons rfl (ensures_terminal _) ?_
    rintro _ ⟨t, ht, hkind, rfl⟩
    refine ensures_trySequence_cons rfl (hrecur _) fun step hstep => .found ?_
    obtain ⟨e, y, ts, hyields, hvalue, hstep, hdrop⟩ := hstep
    refine ⟨_, y, by rw [hstep], .signed s e, s.apply y, t :: ts, .signed hkind hyields, ?_, rfl, ?_⟩
    · rw [Expr.value?, hvalue]
      rfl
    · exact (drop_eq_cons ht).trans (congrArg (t :: ·) hdrop)
  · rintro ⟨values, next⟩ ⟨v, y, rfl, hstands⟩
    refine ensures_tryReduce rfl (fun context w hw => ?_) fun context e he => ?_
    · rw [reducer_eq] at hw
      cases hw
      exact hstands
    · rw [reducer_eq] at he
      cases he

theorem sound_numeral (hfits : ∀ t ∈ tokens, t.Fits)
    (hrules : Sound tokens .atom place ((problem tokens).tryChoice recur place none rules)) :
    Sound tokens .atom place ((problem tokens).tryChoice recur place none (numeral :: rules)) := by
  rw [tryChoice_none_cons]
  refine Ensures.andElse (M := True)
    (P := fun x => ∃ v, x.1 = [v] ∧ Stands tokens .atom place ⟨v, x.2⟩) ?_ ?_ fun _ => hrules
  · refine ensures_trySequence_cons rfl (ensures_terminal _) ?_
    rintro _ ⟨t, ht, hkind, rfl⟩
    obtain ⟨x, hx, hvalue⟩ := exists_ofToken_number hkind (hfits t (mem_of_problem ht))
    exact .found ⟨_, rfl, .number x, x, [t], .number hkind hx, rfl, hvalue, drop_eq_cons ht⟩
  · rintro ⟨values, next⟩ ⟨v, rfl, hstands⟩
    exact .found hstands

theorem sound_parenthesised
    (hrecur : ∀ place, Sound tokens .sum place (recur Level.sum.index place))
    (hrules : Sound tokens .atom place ((problem tokens).tryChoice recur place none rules)) :
    Sound tokens .atom place
      ((problem tokens).tryChoice recur place none (parenthesised :: rules)) := by
  rw [tryChoice_none_cons]
  refine Ensures.andElse (M := True) (P := fun x => ∃ u v w, x.1 = [u, v, w] ∧
    Stands tokens .atom place ⟨v, x.2⟩) ?_ ?_ fun _ => hrules
  · refine ensures_trySequence_cons rfl (ensures_terminal _) ?_
    rintro _ ⟨opening, hopening, hkind, rfl⟩
    refine ensures_trySequence_cons rfl (hrecur _) fun step hstep => ?_
    obtain ⟨e, x, ts, hyields, hvalue, hstep, hdrop⟩ := hstep
    refine ensures_trySequence_cons rfl (ensures_terminal _) ?_
    rintro _ ⟨closing, hclosing, hkind', rfl⟩
    refine .found ⟨_, _, _, rfl, e, x, opening :: (ts ++ [closing]), ?_, hvalue, hstep, ?_⟩
    · exact .parentheses hkind hyields hkind'
    · calc tokens.drop place = opening :: tokens.drop (place + 1) := drop_eq_cons hopening
        _ = opening :: (ts ++ tokens.drop step.next) := congrArg (opening :: ·) hdrop
        _ = opening :: (ts ++ closing :: tokens.drop (step.next + 1)) := by
          rw [drop_eq_cons hclosing]
        _ = opening :: (ts ++ [closing]) ++ tokens.drop (step.next + 1) := by simp
  · rintro ⟨values, next⟩ ⟨u, v, w, rfl, hstands⟩
    exact ensures_tryReduce rfl (fun context y hy => by cases hy; exact hstands)
      fun context e he => by cases he

theorem sound_tryReduce_operation {op : Op} {a b : Expr} {x y : Float} {ts : List Token} {next : Nat}
    (hyields : Yields op.level (.binary op a b) ts) (hx : a.value? = some x) (hy : b.value? = some y)
    (hdrop : tokens.drop place = ts ++ tokens.drop next) :
    Sound tokens op.level place ((problem tokens).tryReduce (operation op) place next
      [.number x, .symbol op.text, .number y]) := by
  have hvalue : (Expr.binary op a b).value? = op.result? x y := by
    rw [Expr.value?, hx, hy]
    rfl
  cases hz : op.result? x y with
  | some z =>
    rw [hz] at hvalue
    refine ensures_tryReduce rfl (fun context v hv => ?_) fun context e he => ?_
    · rw [binary_eq, hz] at hv
      cases hv
      exact ⟨_, z, ts, hyields, hvalue, rfl, hdrop⟩
    · rw [binary_eq, hz] at he
      cases he
  | none =>
    refine ensures_tryReduce rfl (fun context v hv => ?_) fun context e he => ?_
    · rw [binary_eq, hz] at hv
      cases hv
    · rw [binary_eq, hz] at he
      cases he
      rfl

theorem sound_operation (hfits : ∀ t ∈ tokens, t.Fits) {op : Op} {base : Step Value}
    (hbase : Stands tokens op.level place base)
    (hrecur : ∀ place, Sound tokens op.level.tighter place (recur op.level.tighter.index place))
    (hrules : Sound tokens op.level place
      ((problem tokens).tryChoice recur place (some base) rules)) :
    Sound tokens op.level place
      ((problem tokens).tryChoice recur place (some base) (operation op :: rules)) := by
  obtain ⟨a, x, ts, ha, hx, hbase, hdrop⟩ := hbase
  rw [tryChoice_some_cons]
  refine Ensures.andElse (M := True) (P := fun x => ∃ b y us,
    x.1 = [.symbol op.text, .number y] ∧ Yields op.level (.binary op a b) us ∧
      b.value? = some y ∧ tokens.drop place = us ++ tokens.drop x.2) ?_ ?_ fun _ => hrules
  · refine ensures_trySequence_cons rfl (ensures_terminal _) ?_
    rintro _ ⟨t, ht, hkind, rfl⟩
    refine ensures_trySequence_cons rfl (hrecur _) fun step hstep => .found ?_
    obtain ⟨b, y, us, hb, hy, hstep, hdrop'⟩ := hstep
    refine ⟨b, y, ts ++ t :: us, ?_, .binary ha hkind hb, hy, ?_⟩
    · rw [hstep, ofToken_literal hkind (hfits t (mem_of_problem ht))]
    · calc tokens.drop place = ts ++ tokens.drop base.next := hdrop
        _ = ts ++ t :: tokens.drop (base.next + 1) := by rw [drop_eq_cons ht]
        _ = ts ++ t :: (us ++ tokens.drop step.next) := congrArg (ts ++ t :: ·) hdrop'
        _ = ts ++ t :: us ++ tokens.drop step.next := by simp
  · rintro ⟨values, next⟩ ⟨b, y, us, rfl, hyields, hy, hdrop⟩
    rw [hbase]
    exact sound_tryReduce_operation hyields hx hy hdrop

theorem sound_operations (hfits : ∀ t ∈ tokens, t.Fits) {base : Step Value}
    (hbase : Stands tokens l place base)
    (hrecur : ∀ place, Sound tokens l.tighter place (recur l.tighter.index place)) {ops : List Op}
    (hops : ∀ op ∈ ops, op.level = l) :
    Sound tokens l place
      ((problem tokens).tryChoice recur place (some base) (ops.map operation)) := by
  induction ops with
  | nil => exact .missed trivial
  | cons op ops ih =>
    obtain ⟨rfl, hops⟩ := List.forall_mem_cons.1 hops
    exact sound_operation hfits hbase hrecur (ih hops)

theorem sound_unmemoised (hfits : ∀ t ∈ tokens, t.Fits) (rounds : Nat) (l : Level) (place : Nat) :
    Sound tokens l place ((problem tokens).unmemoised rounds l.index place) := by
  induction rounds generalizing l place with
  | zero => exact .none
  | succ rounds ih =>
    rw [unmemoised_succ]
    refine Ensures.andElse (M := True) (P := Stands tokens l place) ?_ (fun base hbase => ?_)
      fun _ => .missed trivial
    · cases l with
      | sum => exact sound_passing (ih .product place) (.missed trivial)
      | product => exact sound_passing (ih .unary place) (.missed trivial)
      | unary =>
        exact sound_signed .minus (ih .unary) (sound_signed .plus (ih .unary)
          (sound_passing (ih .atom place) (.missed trivial)))
      | atom => exact sound_numeral hfits (sound_parenthesised (ih .sum) (.missed trivial))
    · refine ensures_tryGrow (fun base hbase => ?_) rounds hbase
      exact sound_operations hfits hbase (ih l.tighter) level_of_mem_ops

end Packrat.Calc
