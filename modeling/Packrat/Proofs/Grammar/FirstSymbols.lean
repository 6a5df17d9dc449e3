import Packrat.Calc
import Packrat.Proofs.Grammar.Compiled
import Mathlib.Data.Finset.Card
import Mathlib.Data.Finset.Filter
import Mathlib.Logic.Relation

namespace Packrat

variable {V : Type}

def Rule.descends (rank : String → Nat) (r : Rule V) : Bool :=
  match r.rhs.head? with
  | some (.nonTerminal b) => r.isLeftRecursive || decide (rank b < rank r.lhs)
  | _ => true

namespace Grammar

variable {g : Grammar V}

/-- Some ordinary rule for `a` has the non-terminal `b` as its first symbol. -/
def Leads (g : Grammar V) (a b : String) : Prop :=
  ∃ r ∈ g.rules, r.lhs = a ∧ r.isLeftRecursive = false ∧ r.rhs.head? = some (.nonTerminal b)

/-- No left recursion but the direct one. -/
def Acyclic (g : Grammar V) : Prop := ∀ a, ¬Relation.TransGen g.Leads a a

theorem acyclic_of_descends (rank : String → Nat) (h : ∀ r ∈ g.rules, r.descends rank = true) :
    g.Acyclic := by
  have step {a b : String} (hab : g.Leads a b) : rank b < rank a := by
    obtain ⟨r, hr, rfl, hrec, hb⟩ := hab
    simpa [Rule.descends, hb, hrec] using h r hr
  have falls {a b : String} (hab : Relation.TransGen g.Leads a b) : rank b < rank a := by
    induction hab with
    | single hab => exact step hab
    | tail _ hbc ih => exact (step hbc).trans ih
  exact fun a ha => (falls ha).false

open Classical in
/-- How many non-terminals a match of `a` can lead to before it takes a token. -/
noncomputable def rank (g : Grammar V) (a : String) : Nat :=
  (g.names.toFinset.filter (Relation.TransGen g.Leads a)).card

open Classical in
theorem rank_lt_length (hg : g.Acyclic) {a : String} (ha : a ∈ g.names) :
    g.rank a < g.names.length := by
  rw [← List.toFinset_card_of_nodup g.names_nodup]
  refine Finset.card_lt_card (Finset.filter_ssubset.2 ⟨a, ?_, hg a⟩)
  exact List.mem_toFinset.2 ha

open Classical in
theorem rank_lt_rank (hg : g.Acyclic) {a b : String} (hb : b ∈ g.names) (hab : g.Leads a b) :
    g.rank b < g.rank a := by
  refine Finset.card_lt_card (Finset.ssubset_iff_of_subset ?_ |>.2 ⟨b, ?_, ?_⟩)
  · intro c hc
    obtain ⟨hmem, hbc⟩ := Finset.mem_filter.1 hc
    exact Finset.mem_filter.2 ⟨hmem, .head hab hbc⟩
  · exact Finset.mem_filter.2 ⟨List.mem_toFinset.2 hb, .single hab⟩
  · exact fun hc => hg b (Finset.mem_filter.1 hc).2

theorem CompilesTo.rank_name_lt {c : CompiledGrammar V} (h : g.CompilesTo c) (hg : g.Acyclic)
    {i j : Nat} {cr : CompiledRule V} (hcr : cr ∈ c.rulesOf i false)
    (hj : cr.rhs.head? = some (.nonTerminal j)) : g.rank (c.name j) < g.rank (c.name i) := by
  obtain ⟨hmem, rfl, hrec⟩ := CompilesTo.mem_rulesOf.1 hcr
  obtain ⟨r, hr, hrc⟩ := h.exists_rule hmem
  obtain ⟨rest, hrhs⟩ : ∃ rest, cr.rhs = .nonTerminal j :: rest := List.head?_eq_some_iff.1 hj
  obtain ⟨s, ss, hs, -, hss⟩ := List.forall₂_cons_right_iff.1 (hrhs ▸ hrc.rhs)
  cases hs with
  | @nonTerminal _ name hname =>
    rw [h.name_eq hname, h.name_eq hrc.lhs]
    refine rank_lt_rank hg (List.mem_of_getElem? hname) ⟨r, hr, rfl, ?_, by rw [hss]; rfl⟩
    rw [hrc.isLeftRecursive_eq g.names_nodup, hrec]

theorem CompilesTo.rank_name_lt_size {c : CompiledGrammar V} (h : g.CompilesTo c) (hg : g.Acyclic)
    {i : Nat} (hi : i < c.nonTerminals.size) : g.rank (c.name i) < c.nonTerminals.size := by
  have hlen : i < g.names.length := h.size_eq ▸ hi
  have hname := List.getElem?_eq_getElem hlen
  rw [h.size_eq, h.name_eq hname]
  exact rank_lt_length hg (List.mem_of_getElem? hname)

end Grammar

def Calc.looseness (name : String) : Nat :=
  ["atom", "unary", "product", "sum", "calc"].idxOf name

theorem Calc.acyclic_grammar : Calc.grammar.Acyclic :=
  Grammar.acyclic_of_descends Calc.looseness (by decide)

end Packrat
