import Packrat.Proofs.Grammar.Compiled
import Packrat.Value

namespace Packrat

variable {V : Type}

inductive Tree (V : Type) : Type
  | leaf : Token → Tree V
  | node : Rule V → List (Tree V) → Tree V

/-- From the first of some tokens through the last. The focus and the line are those of the first. -/
def spanOf (tokens : List Token) : Marker :=
  match tokens.head?, tokens.getLast? with
  | some first, some last => {
      source := first.marker.source
      focus := first.marker.focus
      start := first.marker.start
      stop := last.marker.stop
      line := first.marker.line }
  | _, _ => .span Marker.unnamed 0 0 1

namespace Rule

def context (r : Rule V) (tokens : List Token) : Context :=
  { nonTerminal := r.lhs, marker := spanOf tokens, tokens := tokens }

/-- What a rule makes of the tokens that it covers and the values of its symbols: the value of its
reducer or, without one, the only value. -/
def apply (r : Rule V) (tokens : List Token) (values : List V) : Except Error V :=
  match r.reducer, values with
  | some f, _ => f (r.context tokens) values
  | none, [v] => pure v
  | none, _ => throw ((r.context tokens).error "nothing to reduce")

theorem apply_of_reducer {r : Rule V} {f : Reducer V} (h : r.reducer = some f)
    (tokens : List Token) (values : List V) :
    r.apply tokens values = f (r.context tokens) values := by
  unfold apply
  rw [h]

theorem apply_singleton {r : Rule V} (h : r.reducer = none) (tokens : List Token) (v : V) :
    r.apply tokens [v] = .ok v := by
  unfold apply
  rw [h]
  rfl

end Rule

namespace Tree

mutual

def tokens : Tree V → List Token
  | leaf t => [t]
  | node _ children => allTokens children

def allTokens : List (Tree V) → List Token
  | [] => []
  | t :: ts => t.tokens ++ allTokens ts

end

variable [OfToken V]

mutual

def value : Tree V → Except Error V
  | leaf t => pure (ofToken t)
  | node r children => do r.apply (allTokens children) (← allValues children)

def allValues : List (Tree V) → Except Error (List V)
  | [] => pure []
  | t :: ts => do
    let v ← t.value
    let vs ← allValues ts
    pure (v :: vs)

end

omit [OfToken V] in
theorem allTokens_append (ts us : List (Tree V)) :
    allTokens (ts ++ us) = allTokens ts ++ allTokens us := by
  induction ts with
  | nil => rw [List.nil_append, allTokens, List.nil_append]
  | cons t ts ih => rw [List.cons_append, allTokens, allTokens, ih, List.append_assoc]

theorem allValues_append {ts us : List (Tree V)} {vs ws : List V} (ht : allValues ts = .ok vs)
    (hu : allValues us = .ok ws) : allValues (ts ++ us) = .ok (vs ++ ws) := by
  induction ts generalizing vs with
  | nil =>
    rw [allValues] at ht
    cases ht
    exact hu
  | cons t ts ih =>
    rw [allValues] at ht
    obtain ⟨v, hv, ht⟩ := bind_eq_ok.1 ht
    obtain ⟨rest, hrest, ht⟩ := bind_eq_ok.1 ht
    cases ht
    rw [List.cons_append, allValues, hv, ih hrest]
    rfl

theorem length_allValues {ts : List (Tree V)} {vs : List V} (h : allValues ts = .ok vs) :
    vs.length = ts.length := by
  induction ts generalizing vs with
  | nil =>
    rw [allValues] at h
    cases h
    rfl
  | cons t ts ih =>
    rw [allValues] at h
    obtain ⟨v, -, h⟩ := bind_eq_ok.1 h
    obtain ⟨rest, hrest, h⟩ := bind_eq_ok.1 h
    cases h
    rw [List.length_cons, List.length_cons, ih hrest]

end Tree

/-- The tree derives the symbol: a terminal gives a token of its kind, and a non-terminal one of its
rules over trees for the symbols of the right side. -/
inductive Grammar.Derives (g : Grammar V) : Symbol → Tree V → Prop
  | leaf (t : Token) : Derives g (.terminal t.kind) (.leaf t)
  | node {r : Rule V} {children : List (Tree V)} : r ∈ g.rules →
      List.Forall₂ (Derives g) r.rhs children → Derives g (.nonTerminal r.lhs) (.node r children)

theorem Grammar.Derives.exists_first {g : Grammar V} {s : Symbol} {r : Rule V}
    {children : List (Tree V)} (h : g.Derives s (.node r children))
    (hrec : r.isLeftRecursive = true) :
    ∃ first rest, children = first :: rest ∧ g.Derives s first := by
  cases h with
  | node hr hchildren =>
    obtain ⟨behind, hrhs⟩ := List.head?_eq_some_iff.1 (beq_iff_eq.1 hrec)
    rw [hrhs] at hchildren
    obtain ⟨first, rest, hfirst, -, hrest⟩ := List.forall₂_cons_left_iff.1 hchildren
    exact ⟨first, rest, hrest, hfirst⟩

end Packrat
