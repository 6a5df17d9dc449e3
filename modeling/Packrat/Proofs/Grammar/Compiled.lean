import Packrat.Grammar.Compiled
import Packrat.Proofs.Checked

namespace Packrat

variable {V : Type}

theorem Rule.check_eq_ok_iff (r : Rule V) :
    r.check = .ok () ↔
      isNonTerminalName r.lhs = true ∧ r.rhs ≠ [] ∧ (∀ s ∈ r.rhs, s.isEmpty = false) ∧
        (r.isLeftRecursive = true → 2 ≤ r.rhs.length) ∧
        (r.reducer = none → r.rhs.length ≤ 1) := by
  unfold Rule.check
  simp only [ite_throw_eq_ok]
  by_cases h : r.reducer = none <;> by_cases hlen : 1 < r.rhs.length
  all_goals
    simp [h, hlen, pure, Except.pure, throw, throwThe, MonadExceptOf.throw]
    try grind

def CompiledRule.isLeftRecursive (r : CompiledRule V) : Bool :=
  r.rhs.head? == some (.nonTerminal r.lhs)

def CompiledGrammar.rulesOf (c : CompiledGrammar V) (i : Nat) (leftRecursive : Bool) :
    List (CompiledRule V) :=
  c.rules.toList.filter fun r => r.lhs == i && r.isLeftRecursive == leftRecursive

namespace Grammar

def addName (names : List String) (r : Rule V) : List String :=
  if names.contains r.lhs then names else names ++ [r.lhs]

theorem nodup_addName {names : List String} (h : names.Nodup) (r : Rule V) :
    (addName names r).Nodup := by
  unfold addName
  split
  · exact h
  · next hr => simpa [List.nodup_append, h] using fun a ha e => hr (by simpa [← e] using ha)

theorem mem_addName {names : List String} {r : Rule V} {name : String} :
    name ∈ addName names r ↔ name ∈ names ∨ r.lhs = name := by
  unfold addName
  split
  · next hr =>
    constructor
    · exact .inl
    · rintro (h | rfl)
      · exact h
      · simpa using hr
  · simp [eq_comm]

theorem names_eq_foldl (g : Grammar V) : g.names = g.rules.foldl addName [] := rfl

theorem names_nodup (g : Grammar V) : g.names.Nodup := by
  rw [names_eq_foldl]
  exact List.foldlRecOn g.rules addName .nil fun names h r _ => nodup_addName h r

theorem mem_names {g : Grammar V} {name : String} :
    name ∈ g.names ↔ ∃ r ∈ g.rules, r.lhs = name := by
  have collect (rs : List (Rule V)) (names : List String) :
      name ∈ rs.foldl addName names ↔ name ∈ names ∨ ∃ r ∈ rs, r.lhs = name := by
    induction rs generalizing names with
    | nil => simp
    | cons r rs ih => simp [ih, mem_addName, or_assoc]
  rw [names_eq_foldl, collect]
  simp

inductive Resolves (names : List String) : Symbol → Slot → Prop
  | terminal (k : Kind) : Resolves names (.terminal k) (.terminal k)
  | nonTerminal {i : Nat} {name : String} :
      names[i]? = some name → Resolves names (.nonTerminal name) (.nonTerminal i)

theorem resolves_of_resolve {names : List String} {lexer : Lexer} {text : String} {s : Symbol}
    {slot : Slot} (h : resolve names lexer text s = .ok slot) : Resolves names s slot := by
  cases s with
  | terminal k =>
    simp only [resolve] at h
    split at h <;> cases h
    exact .terminal k
  | nonTerminal name =>
    simp only [resolve] at h
    split at h
    · next i hi =>
      cases h
      obtain ⟨hlen, hname, -⟩ := List.idxOf?_eq_some_iff.1 hi
      exact .nonTerminal (List.getElem?_eq_some_iff.2 ⟨hlen, hname⟩)
    · cases h

/-- What compilation keeps of a rule that has passed its checks. -/
structure RuleCompiles (names : List String) (r : Rule V) (cr : CompiledRule V) : Prop where
  lhs : names[cr.lhs]? = some r.lhs
  rhs : List.Forall₂ (Resolves names) r.rhs cr.rhs
  reducer : cr.reducer = r.reducer
  failHard : cr.failHard = r.failHard
  rhs_ne_nil : r.rhs ≠ []
  two_le_length : r.isLeftRecursive = true → 2 ≤ r.rhs.length
  length_le_one : r.reducer = none → r.rhs.length ≤ 1

theorem name_eq_iff {names : List String} (hnd : names.Nodup) {i j : Nat} {a b : String}
    (hi : names[i]? = some a) (hj : names[j]? = some b) : a = b ↔ i = j := by
  constructor
  · rintro rfl
    exact (List.getElem?_inj (List.getElem?_eq_some_iff.1 hi).1 hnd).1 (hi.trans hj.symm)
  · rintro rfl
    exact Option.some.inj (hi.symm.trans hj)

namespace RuleCompiles

variable {names : List String} {r : Rule V} {cr : CompiledRule V}

theorem of_compileRule {lexer : Lexer} (hcheck : r.check = .ok ()) (hmem : r.lhs ∈ names)
    (h : compileRule names lexer r = .ok cr) : RuleCompiles names r cr := by
  obtain ⟨slots, hslots, h⟩ := bind_eq_ok.1 h
  cases h
  obtain ⟨-, hne, -, htwo, hone⟩ := r.check_eq_ok_iff.1 hcheck
  exact {
    lhs := by simp [hmem]
    rhs := (mapM_eq_ok_iff.1 hslots).imp fun _ _ => resolves_of_resolve
    reducer := rfl
    failHard := rfl
    rhs_ne_nil := hne
    two_le_length := htwo
    length_le_one := hone }

theorem length_eq (h : RuleCompiles names r cr) : r.rhs.length = cr.rhs.length := h.rhs.length_eq

theorem isLeftRecursive_eq (hnd : names.Nodup) (h : RuleCompiles names r cr) :
    r.isLeftRecursive = cr.isLeftRecursive := by
  have hlhs := h.lhs
  have hrhs := h.rhs
  unfold Rule.isLeftRecursive CompiledRule.isLeftRecursive
  cases hr : r.rhs with
  | nil => exact absurd hr h.rhs_ne_nil
  | cons s rest =>
    rw [hr] at hrhs
    obtain ⟨slot, slots, hs, -, hslots⟩ := List.forall₂_cons_left_iff.1 hrhs
    rw [hslots]
    cases hs with
    | terminal k => rfl
    | @nonTerminal i name hi =>
      rw [Bool.eq_iff_iff]
      simpa using name_eq_iff hnd hi hlhs

end RuleCompiles

theorem filterMap_zipIdx {α β : Type} {R : α → β → Prop} {p : α → Bool} {q : β → Bool}
    {xs : List α} {ys : List β} (h : List.Forall₂ R xs ys) (hpq : ∀ x y, R x y → p x = q y)
    (front : List β) :
    (((xs.zipIdx front.length).filter fun x => p x.1).map (·.2)).filterMap ((front ++ ys)[·]?) =
      ys.filter q := by
  induction h generalizing front with
  | nil => rfl
  | @cons x y xs ys hxy _ ih =>
    have := ih (front ++ [y])
    rw [List.length_append, List.length_singleton, List.append_assoc, List.singleton_append] at this
    rw [List.zipIdx_cons]
    cases hp : p x with
    | true =>
      simp only [hp, hpq x y hxy ▸ hp, List.filter_cons_of_pos, List.map_cons]
      rw [List.filterMap_cons_some (b := y) (by simp), this]
    | false =>
      rw [List.filter_cons_of_neg (by simp [hp]), List.filter_cons_of_neg (by simp [← hpq x y hxy, hp]),
        this]

/-- `c` is `g` with its non-terminals numbered in the order of their names. -/
structure CompilesTo (g : Grammar V) (c : CompiledGrammar V) : Prop where
  start : g.names[c.start]? = some g.start
  rules : List.Forall₂ (RuleCompiles g.names) g.rules c.rules.toList
  names : c.nonTerminals.toList.map (·.name) = g.names
  ordinary {i : Nat} {spec : NonTerminal} : c.nonTerminals[i]? = some spec →
    spec.ordinary.filterMap (c.rules[·]?) = c.rulesOf i false
  leftRecursive {i : Nat} {spec : NonTerminal} : c.nonTerminals[i]? = some spec →
    spec.leftRecursive.filterMap (c.rules[·]?) = c.rulesOf i true

theorem ruleNumbers_filterMap {g : Grammar V} {rules : List (CompiledRule V)} {i : Nat}
    {name : String} (hrules : List.Forall₂ (RuleCompiles g.names) g.rules rules)
    (hi : g.names[i]? = some name) (b : Bool) :
    (g.ruleNumbers name b).filterMap (rules[·]?) =
      rules.filter fun r => r.lhs == i && r.isLeftRecursive == b := by
  refine filterMap_zipIdx (p := fun r => r.lhs == name && r.isLeftRecursive == b) hrules ?_ []
  intro r cr h
  rw [Bool.eq_iff_iff]
  simp [name_eq_iff g.names_nodup h.lhs hi, h.isLeftRecursive_eq g.names_nodup]

theorem compilesTo_of_compile {g : Grammar V} {lexer : Lexer} {c : CompiledGrammar V}
    (h : g.compile lexer = .ok c) : g.CompilesTo c := by
  obtain ⟨_, hcheck, h⟩ := bind_eq_ok.1 h
  have hcheck := forM_eq_ok_iff.1 hcheck
  dsimp only at h
  split at h
  · cases h
  · next start hstart =>
    obtain ⟨rules, hrules, h⟩ := bind_eq_ok.1 h
    cases h
    obtain ⟨hlen, hname, -⟩ := List.idxOf?_eq_some_iff.1 hstart
    have hrules : List.Forall₂ (RuleCompiles g.names) g.rules rules := by
      refine List.forall₂_iff_get.2 ⟨(mapM_eq_ok_iff.1 hrules).length_eq, fun i hi hi' => ?_⟩
      exact .of_compileRule (hcheck _ (List.get_mem ..)) (mem_names.2 ⟨_, List.get_mem .., rfl⟩)
        ((mapM_eq_ok_iff.1 hrules).get hi hi')
    have named {i : Nat} {spec : NonTerminal} {f : String → NonTerminal}
        (h : (g.names.map f).toArray[i]? = some spec) :
        ∃ name, g.names[i]? = some name ∧ f name = spec := by simpa using h
    exact {
      start := List.getElem?_eq_some_iff.2 ⟨hlen, hname⟩
      rules := hrules
      names := by simp [Function.comp_def]
      ordinary := fun h => by
        obtain ⟨name, hi, rfl⟩ := named h
        simpa [CompiledGrammar.rulesOf] using ruleNumbers_filterMap hrules hi false
      leftRecursive := fun h => by
        obtain ⟨name, hi, rfl⟩ := named h
        simpa [CompiledGrammar.rulesOf] using ruleNumbers_filterMap hrules hi true }

namespace CompilesTo

variable {g : Grammar V} {c : CompiledGrammar V}

theorem size_eq (h : g.CompilesTo c) : c.nonTerminals.size = g.names.length := by
  rw [← h.names, List.length_map, Array.length_toList]

theorem name_eq (h : g.CompilesTo c) {i : Nat} {name : String} (hi : g.names[i]? = some name) :
    c.name i = name := by
  rw [← h.names, List.getElem?_map, Array.getElem?_toList] at hi
  unfold CompiledGrammar.name
  cases hspec : c.nonTerminals[i]? with
  | none => simp [hspec] at hi
  | some spec => simpa [hspec] using hi

theorem lt_size (h : g.CompilesTo c) {i : Nat} {name : String} (hi : g.names[i]? = some name) :
    i < c.nonTerminals.size := by
  rw [h.size_eq]
  exact (List.getElem?_eq_some_iff.1 hi).1

theorem exists_rule (h : g.CompilesTo c) {cr : CompiledRule V} (hcr : cr ∈ c.rules.toList) :
    ∃ r ∈ g.rules, RuleCompiles g.names r cr := exists_left_of_mem h.rules hcr

theorem slot_lt_size (h : g.CompilesTo c) {cr : CompiledRule V} (hcr : cr ∈ c.rules.toList)
    {j : Nat} (hj : .nonTerminal j ∈ cr.rhs) : j < c.nonTerminals.size := by
  obtain ⟨r, -, hr⟩ := h.exists_rule hcr
  obtain ⟨s, -, hs⟩ := exists_left_of_mem hr.rhs hj
  cases hs with
  | nonTerminal hname => exact h.lt_size hname

theorem mem_rulesOf {i : Nat} {b : Bool} {cr : CompiledRule V} :
    cr ∈ c.rulesOf i b ↔ cr ∈ c.rules.toList ∧ cr.lhs = i ∧ cr.isLeftRecursive = b := by
  simp [CompiledGrammar.rulesOf]

theorem rhs_ne_nil (h : g.CompilesTo c) {cr : CompiledRule V} (hcr : cr ∈ c.rules.toList) :
    cr.rhs ≠ [] := by
  obtain ⟨r, -, hr⟩ := h.exists_rule hcr
  rw [← List.length_pos_iff, ← hr.length_eq]
  exact List.length_pos_iff.2 hr.rhs_ne_nil

theorem tail_ne_nil (h : g.CompilesTo c) {cr : CompiledRule V} (hcr : cr ∈ c.rules.toList)
    (hrec : cr.isLeftRecursive = true) : cr.rhs.tail ≠ [] := by
  obtain ⟨r, -, hr⟩ := h.exists_rule hcr
  have := hr.two_le_length ((hr.isLeftRecursive_eq g.names_nodup).trans hrec)
  rw [← List.length_pos_iff, List.length_tail, ← hr.length_eq]
  omega

end CompilesTo

end Grammar

end Packrat
