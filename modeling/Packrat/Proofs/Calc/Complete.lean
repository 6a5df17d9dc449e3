import Packrat.Proofs.Calc.Compiled
import Packrat.Proofs.Parser.Trial

namespace Packrat.Calc

open Packrat.Parser Trial Problem

variable {tokens : List Token} {l : Level} {place : Nat} {recur : Nat → Nat → Trial (Step Value)}
  {e : Expr} {ts more : List Token} {rules : List (CompiledRule Value)}

def Level.rank : Level → Nat
  | sum => 3
  | product => 2
  | unary => 1
  | atom => 0

theorem rank_tighter (l : Level) : l.tighter.rank = l.rank - 1 := by
  cases l <;> rfl

def Ends (l : Level) (more : List Token) : Prop :=
  ∀ op : Op, op.level.rank ≤ l.rank → ∀ t ∈ more.head?, t.kind ≠ .literal op.text

theorem Ends.tighter (h : Ends l more) : Ends l.tighter more :=
  fun op hop => h op (by rw [rank_tighter] at hop; omega)

theorem ends_unary (more : List Token) : Ends .unary more := by
  intro op hop
  cases op <;> cases hop <;> contradiction

theorem text_ne_text {op op' : Op} (h : op ≠ op') : op.text ≠ op'.text := by
  cases op <;> cases op' <;> first | decide | contradiction

theorem ends_operation {op : Op} {t : Token} (ht : t.kind = .literal op.text) (more : List Token) :
    Ends op.level.tighter (t :: more) := by
  intro op' hop' u hu
  cases hu
  have hne : op ≠ op' := by
    rintro rfl
    rw [rank_tighter] at hop'
    cases op <;> contradiction
  rw [ht]
  exact fun heq => text_ne_text hne (Kind.literal.inj heq)

theorem ends_closing {t : Token} (ht : t.kind = .literal ")") (more : List Token) :
    Ends .sum (t :: more) := by
  intro op hop u hu
  cases hu
  rw [ht]
  cases op <;> decide

theorem getElem?_of_drop {t : Token} (h : tokens.drop place = t :: more) :
    (problem tokens).tokens[place]? = some t := by
  rw [getElem?_problem, ← List.head?_drop, h]
  rfl

def covering (place : Nat) (ts : List Token) (x : Float) : Step Value :=
  ⟨.number x, place + ts.length⟩

def Matches (tokens : List Token) (recur : Nat → Nat → Trial (Step Value)) (l : Level) (place : Nat)
    (ts : List Token) (v : Option Float) : Prop :=
  ((problem tokens).trySlot recur (.nonTerminal l.index) place).Settles DividesByZero v fun x =>
    .found (covering place ts x)

variable {v : Option Float}

theorem settles_passing (h : Matches tokens recur l.tighter place ts v) :
    ((problem tokens).tryChoice recur place none (passing l :: rules)).Settles DividesByZero v
      fun x => .found (covering place ts x) := by
  rw [tryChoice_none_cons]
  exact (settles_trySequence_last h).andElse

theorem settles_signed {s : Sign} {t : Token}
    (ht : (problem tokens).tokens[place]? = some t) (hkind : t.kind = .literal s.text)
    (h : Matches tokens recur .unary (place + 1) ts v) :
    ((problem tokens).tryChoice recur place none (signed s :: rules)).Settles DividesByZero
      (v.map s.apply) fun x => .found (covering place (t :: ts) x) := by
  have hlength : place + (t :: ts).length = place + 1 + ts.length := by
    rw [List.length_cons]
    omega
  have hreduce (x : Float) : (problem tokens).tryReduce (signed s) place (place + 1 + ts.length)
      [ofToken t, .number x] = .found (covering place (t :: ts) (s.apply x)) := by
    rw [tryReduce_eq rfl, reducer_eq, covering, hlength]
  rw [tryChoice_none_cons]
  refine .map ?_
  simp only [← hreduce]
  exact (settles_trySequence_behind (leads_terminal ht hkind) (settles_trySequence_last h)).andElse

theorem leads_missed {rule : CompiledRule Value} {kind : Kind} {rest : List Slot} {t : Token}
    (hrhs : rule.rhs = .terminal kind :: rest) (hrule : rule.failHard = false)
    (hdrop : tokens.drop place = t :: more) (hkind : t.kind ≠ kind) :
    ((problem tokens).tryChoice recur place none (rule :: rules)).Leads
      ((problem tokens).tryChoice recur place none rules) := by
  rw [tryChoice_none_cons, hrhs]
  refine Leads.andElse_missed (leads_trySequence_missed hrule (leads_terminal_missed ?_)) _ _
  intro u hu
  rw [getElem?_of_drop hdrop] at hu
  cases hu
  exact hkind

theorem leads_numeral {t : Token} {x : Float} (ht : (problem tokens).tokens[place]? = some t)
    (hkind : t.kind = .number) (hvalue : (ofToken t : Value) = .number x) :
    ((problem tokens).tryChoice recur place none (numeral :: rules)).Leads
      (.found (covering place [t] x)) := by
  rw [tryChoice_none_cons, covering, ← hvalue]
  exact (leads_trySequence_last (leads_terminal ht hkind)).andElse_found _ _

theorem settles_parenthesised {opening closing : Token}
    (hopening : (problem tokens).tokens[place]? = some opening)
    (hkind : opening.kind = .literal "(")
    (h : Matches tokens recur .sum (place + 1) ts v)
    (hclosing : (problem tokens).tokens[place + 1 + ts.length]? = some closing)
    (hkind' : closing.kind = .literal ")") :
    ((problem tokens).tryChoice recur place none (parenthesised :: rules)).Settles DividesByZero v
      fun x => .found (covering place (opening :: (ts ++ [closing])) x) := by
  have hend (x : Float) : ((problem tokens).trySequence recur parenthesised false
      [.terminal (.literal ")")] (covering (place + 1) ts x).next).Leads
        (.found ([ofToken closing], place + 1 + ts.length + 1)) :=
    leads_trySequence_last (leads_terminal hclosing hkind')
  have hlength : place + (opening :: (ts ++ [closing])).length = place + 1 + ts.length + 1 := by
    simp
    omega
  rw [tryChoice_none_cons]
  unfold covering
  rw [hlength]
  exact (settles_trySequence_behind (leads_terminal hopening hkind)
    (settles_trySequence_cons h hend)).andElse

theorem settles_tryReduce_operation (op : Op) (x y : Float) (place next : Nat) :
    ((problem tokens).tryReduce (operation op) place next
        [.number x, .symbol op.text, .number y]).Settles DividesByZero (op.result? x y)
      fun z => .found ⟨.number z, next⟩ := by
  rw [tryReduce_eq rfl, binary_eq]
  cases op.result? x y with
  | some z => exact Leads.refl _
  | none =>
    refine ⟨_, ?_, .refl _⟩
    rfl

theorem settles_operations {op : Op} {x : Float} {base : Nat} {t : Token} {ops : List Op}
    (hop : op ∈ ops) (ht : (problem tokens).tokens[base]? = some t)
    (hkind : t.kind = .literal op.text) (hfits : t.Fits)
    (h : Matches tokens recur op.level.tighter (base + 1) ts v) :
    ((problem tokens).tryChoice recur place (some ⟨.number x, base⟩) (ops.map operation)).Settles
      DividesByZero (v.bind (op.result? x)) fun z => .found (covering base (t :: ts) z) := by
  induction ops with
  | nil => cases hop
  | cons op' ops ih =>
    rw [List.map_cons, tryChoice_some_cons]
    by_cases heq : op' = op
    · subst heq
      have hlength : base + (t :: ts).length = base + 1 + ts.length := by
        rw [List.length_cons]
        omega
      refine Settles.bind (settles_trySequence_behind (leads_terminal ht hkind)
        (settles_trySequence_last h)).andElse fun y hy => ?_
      unfold covering
      rw [hlength, ofToken_literal hkind hfits]
      exact settles_tryReduce_operation op' x y place _
    · have hmem : op ∈ ops := (List.mem_cons.1 hop).resolve_left (Ne.symm heq)
      refine .of_leads (Leads.andElse_missed (leads_trySequence_missed rfl
        (leads_terminal_missed ?_)) _ _) (ih hmem)
      intro u hu
      cases ht.symm.trans hu
      rw [hkind]
      exact fun hsame => text_ne_text heq (Kind.literal.inj hsame).symm

theorem leads_operations_missed {base : Step Value} {ops : List Op}
    (h : ∀ op ∈ ops, ∀ t, (problem tokens).tokens[base.next]? = some t → t.kind ≠ .literal op.text) :
    ((problem tokens).tryChoice recur place (some base) (ops.map operation)).Leads .missed := by
  induction ops with
  | nil => exact .refl _
  | cons op ops ih =>
    obtain ⟨hop, hops⟩ := List.forall_mem_cons.1 h
    rw [List.map_cons, tryChoice_some_cons]
    exact (Leads.andElse_missed (leads_trySequence_missed rfl (leads_terminal_missed hop)) _ _).trans
      (ih hops)

theorem leads_tryGrow_of_ends {base : Step Value} (hends : Ends l (tokens.drop base.next))
    (rounds : Nat) :
    ((problem tokens).tryGrow recur place (l.ops.map operation) (rounds + 1) base).Leads
      (.found base) := by
  refine Leads.andElse_missed (leads_operations_missed fun op hop t ht => ?_) _ _
  refine hends op ?_ t ?_
  · rw [level_of_mem_ops op hop]
  · rw [drop_eq_cons ht]
    rfl

/-- The match of a level comes to the fold of its operations, with the value of `e` over `ts` to begin
with. Each token of `ts` takes at most four levels of rounds, and at most one round of the fold. -/
def Reaches (tokens : List Token) (l : Level) (e : Expr) (ts : List Token) : Prop :=
  ∀ (place rounds : Nat) (more : List Token), tokens.drop place = ts ++ more → Ends l.tighter more →
    4 * ts.length + l.rank < rounds → ∃ n, rounds ≤ n + ts.length ∧
      ((problem tokens).unmemoised (rounds + 1) l.index place).Settles DividesByZero e.value? fun x =>
        (problem tokens).tryGrow ((problem tokens).unmemoised rounds) place (l.ops.map operation) n
          (covering place ts x)

theorem Reaches.matches (h : Reaches tokens l e ts) {place rounds : Nat} {more : List Token}
    (hdrop : tokens.drop place = ts ++ more) (hends : Ends l more)
    (hrounds : 4 * ts.length + l.rank + 1 < rounds) :
    Matches tokens ((problem tokens).unmemoised rounds) l place ts e.value? := by
  obtain ⟨rounds, rfl⟩ := Nat.exists_eq_add_one_of_ne_zero (Nat.ne_zero_of_lt hrounds)
  obtain ⟨n, hn, hsettles⟩ := h _ rounds _ hdrop hends.tighter (Nat.lt_of_succ_lt_succ hrounds)
  obtain ⟨n, rfl⟩ := Nat.exists_eq_add_one_of_ne_zero (show n ≠ 0 by omega)
  have hbehind : tokens.drop (place + ts.length) = more := by
    rw [← List.drop_drop, hdrop, List.drop_left]
  exact hsettles.trans fun x => leads_tryGrow_of_ends (hbehind ▸ hends) n

theorem reaches_of_ordinary
    (h : ∀ (place rounds : Nat) (more : List Token), tokens.drop place = ts ++ more →
      Ends l.tighter more → 4 * ts.length + l.rank < rounds →
      ((problem tokens).tryChoice ((problem tokens).unmemoised rounds) place none l.ordinary).Settles
        DividesByZero e.value? fun x => .found (covering place ts x)) :
    Reaches tokens l e ts := by
  intro place rounds more hdrop hends hrounds
  refine ⟨rounds, Nat.le_add_right _ _, ?_⟩
  rw [unmemoised_succ]
  exact (h _ _ _ hdrop hends hrounds).andElse

theorem mem_of_drop {t : Token} (h : tokens.drop place = t :: more) : t ∈ tokens :=
  mem_of_problem (getElem?_of_drop h)

theorem reaches_number (hfits : ∀ t ∈ tokens, t.Fits) {t : Token} {x : Float}
    (hkind : t.kind = .number) (hpayload : t.payload = some (.number x)) :
    Reaches tokens .atom (.number x) [t] := by
  refine reaches_of_ordinary fun place rounds more hdrop _ _ => ?_
  obtain ⟨y, hy, hvalue⟩ := exists_ofToken_number hkind (hfits t (mem_of_drop hdrop))
  cases hpayload.symm.trans hy
  exact leads_numeral (getElem?_of_drop hdrop) hkind hvalue

theorem reaches_parentheses {opening closing : Token} (hopening : opening.kind = .literal "(")
    (h : Reaches tokens .sum e ts) (hclosing : closing.kind = .literal ")") :
    Reaches tokens .atom e (opening :: (ts ++ [closing])) := by
  refine reaches_of_ordinary fun place rounds more hdrop _ hrounds => ?_
  have hinner : tokens.drop (place + 1) = ts ++ closing :: more := by
    rw [← List.drop_drop, hdrop]
    simp
  have hbehind : tokens.drop (place + 1 + ts.length) = closing :: more := by
    rw [← List.drop_drop, hinner, List.drop_left]
  have hmatches := h.matches hinner (ends_closing hclosing more) (show _ < rounds by
    simp only [List.length_cons, List.length_append, List.length_nil, Level.rank] at hrounds ⊢
    omega)
  refine .of_leads (leads_missed rfl rfl hdrop ?_) ?_
  · rw [hopening]
    nofun
  · exact settles_parenthesised (getElem?_of_drop hdrop) hopening hmatches
      (getElem?_of_drop hbehind) hclosing

theorem reaches_signed {s : Sign} {t : Token} (hkind : t.kind = .literal s.text)
    (h : Reaches tokens .unary e ts) : Reaches tokens .unary (.signed s e) (t :: ts) := by
  refine reaches_of_ordinary fun place rounds more hdrop _ hrounds => ?_
  have hinner : tokens.drop (place + 1) = ts ++ more := by
    rw [← List.drop_drop, hdrop]
    rfl
  have hmatches := h.matches hinner (ends_unary more) (show _ < rounds by
    simp only [List.length_cons, Level.rank] at hrounds ⊢
    omega)
  cases s with
  | minus => exact settles_signed (getElem?_of_drop hdrop) hkind hmatches
  | plus =>
    refine .of_leads (leads_missed rfl rfl hdrop ?_)
      (settles_signed (getElem?_of_drop hdrop) hkind hmatches)
    rw [hkind]
    decide

theorem reaches_binary (hfits : ∀ t ∈ tokens, t.Fits) {op : Op} {t : Token} {a b : Expr}
    {us : List Token} (ha : Reaches tokens op.level a ts) (hkind : t.kind = .literal op.text)
    (hb : Reaches tokens op.level.tighter b us) :
    Reaches tokens op.level (.binary op a b) (ts ++ t :: us) := by
  intro place rounds more hdrop hends hrounds
  rw [List.length_append, List.length_cons] at hrounds
  have hfirst : tokens.drop place = ts ++ t :: (us ++ more) := by
    rw [hdrop]
    simp
  have hoperation : tokens.drop (place + ts.length) = t :: (us ++ more) := by
    rw [← List.drop_drop, hfirst, List.drop_left]
  have hsecond : tokens.drop (place + ts.length + 1) = us ++ more := by
    rw [← List.drop_drop, hoperation]
    rfl
  obtain ⟨n, hn, hsettles⟩ := ha place rounds _ hfirst (ends_operation hkind _) (by omega)
  obtain ⟨n, rfl⟩ := Nat.exists_eq_add_one_of_ne_zero (show n ≠ 0 by omega)
  have hmatches := hb.matches hsecond hends (show _ < rounds by
    rw [rank_tighter]
    omega)
  refine ⟨n, ?_, ?_⟩
  · rw [List.length_append, List.length_cons]
    omega
  · refine hsettles.bind fun x hx => ?_
    have hlength : place + (ts ++ t :: us).length = place + ts.length + (t :: us).length := by
      rw [List.length_append, Nat.add_assoc]
    unfold covering
    rw [hlength]
    exact (settles_operations (mem_ops_level op) (getElem?_of_drop hoperation) hkind
      (hfits t (mem_of_drop hoperation)) hmatches).andElse

theorem head_of_atom (h : Yields l e ts) (hl : l = .atom) :
    ∃ t more, ts = t :: more ∧ ∀ s : Sign, t.kind ≠ .literal s.text := by
  induction h with
  | number hkind hpayload =>
    refine ⟨_, _, rfl, fun s => ?_⟩
    rw [hkind]
    nofun
  | parentheses hopening _ _ _ =>
    refine ⟨_, _, rfl, fun s => ?_⟩
    rw [hopening]
    cases s <;> decide
  | signed _ _ _ => cases hl
  | @binary op _ _ _ _ _ _ _ _ _ _ => cases op <;> cases hl
  | loosen _ ih => exact ih (by rw [hl]; rfl)

theorem reaches_loosen (hyields : Yields l.tighter e ts) (h : Reaches tokens l.tighter e ts) :
    Reaches tokens l e ts := by
  have hmatches {place rounds : Nat} {more : List Token} (hdrop : tokens.drop place = ts ++ more)
      (hends : Ends l.tighter more) (hrounds : 4 * ts.length + l.tighter.rank + 1 < rounds) :
      Matches tokens ((problem tokens).unmemoised rounds) l.tighter place ts e.value? :=
    h.matches hdrop hends hrounds
  cases l with
  | sum => exact reaches_of_ordinary fun _ _ _ hdrop hends hrounds =>
      settles_passing (hmatches hdrop hends hrounds)
  | product => exact reaches_of_ordinary fun _ _ _ hdrop hends hrounds =>
      settles_passing (hmatches hdrop hends hrounds)
  | unary =>
    refine reaches_of_ordinary fun place rounds more hdrop hends hrounds => ?_
    obtain ⟨t, rest, rfl, hsign⟩ := head_of_atom hyields rfl
    refine .of_leads (leads_missed rfl rfl hdrop (hsign .minus)) ?_
    refine .of_leads (leads_missed rfl rfl hdrop (hsign .plus)) ?_
    exact settles_passing (hmatches hdrop hends hrounds)
  | atom => exact h

theorem reaches_of_yields (hfits : ∀ t ∈ tokens, t.Fits) (h : Yields l e ts) :
    Reaches tokens l e ts := by
  induction h with
  | number hkind hpayload => exact reaches_number hfits hkind hpayload
  | parentheses hopening _ hclosing ih => exact reaches_parentheses hopening ih hclosing
  | signed hkind _ ih => exact reaches_signed hkind ih
  | binary _ hkind _ iha ihb => exact reaches_binary hfits iha hkind ihb
  | loosen hyields ih => exact reaches_loosen hyields ih

end Packrat.Calc
