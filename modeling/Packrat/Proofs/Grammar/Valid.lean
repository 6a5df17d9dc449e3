import Packrat.Parser
import Packrat.Proofs.Grammar.Compiled
import Packrat.Value
import Mathlib.Data.List.Nodup

namespace Packrat

variable {V : Type}

def StartsName (c : Char) : Prop := 'A' ≤ c ∧ c ≤ 'Z' ∨ 'a' ≤ c ∧ c ≤ 'z' ∨ c = '_'

def ContinuesName (c : Char) : Prop := StartsName c ∨ '0' ≤ c ∧ c ≤ '9' ∨ c = '-'

def IsName (name : String) : Prop :=
  ∃ c rest, name.toList = c :: rest ∧ StartsName c ∧ ∀ d ∈ rest, ContinuesName d

theorem isNonTerminalName_iff (name : String) : isNonTerminalName name = true ↔ IsName name := by
  have between (low high c : Char) :
      (decide (c.val ≥ low.val) && decide (c.val ≤ high.val)) = true ↔ low ≤ c ∧ c ≤ high := by
    simp [Char.le_def]
  have starts (c : Char) : (c.isAlpha || c == '_') = true ↔ StartsName c := by
    have upper : c.isUpper = true ↔ 'A' ≤ c ∧ c ≤ 'Z' := decide_eq_true_iff
    have lower : c.isLower = true ↔ 'a' ≤ c ∧ c ≤ 'z' := between 'a' 'z' c
    have alpha : c.isAlpha = (c.isUpper || c.isLower) := rfl
    simp only [StartsName, alpha, ← upper, ← lower, Bool.or_eq_true, beq_iff_eq, or_assoc]
  have continues (c : Char) : (c.isAlphanum || c == '_' || c == '-') = true ↔ ContinuesName c := by
    have digit : c.isDigit = true ↔ '0' ≤ c ∧ c ≤ '9' := between '0' '9' c
    simp only [ContinuesName, ← starts c, ← digit, Char.isAlphanum, Bool.or_eq_true, beq_iff_eq]
    grind
  unfold isNonTerminalName IsName
  cases name.toList with
  | nil => simp
  | cons c rest => simp only [Bool.and_eq_true, List.all_eq_true, starts, continues]; simp

def NonTerminal.numbers (n : NonTerminal) : List Nat := n.ordinary ++ n.leftRecursive

namespace CompiledGrammar

def names (c : CompiledGrammar V) : List String := c.nonTerminals.toList.map (·.name)

/-- The tables of `c` say what `g` says. Names, slots and rules correspond one by one, and each rule
number is in one list, that of its left side and its sort. -/
structure Tabulates (c : CompiledGrammar V) (g : Grammar V) : Prop where
  names_nodup : c.names.Nodup
  mem_names (name : String) : name ∈ c.names ↔ ∃ r ∈ g.rules, r.lhs = name
  start : c.names[c.start]? = some g.start
  rules : List.Forall₂
    (fun r cr => c.names[cr.lhs]? = some r.lhs ∧
      List.Forall₂ (Grammar.Resolves c.names) r.rhs cr.rhs ∧
      cr.reducer = r.reducer ∧ cr.failHard = r.failHard)
    g.rules c.rules.toList
  numbers : (c.nonTerminals.toList.flatMap (·.numbers)).Perm (List.range c.rules.size)
  listed (k : Nat) (cr : CompiledRule V) : c.rules[k]? = some cr →
    ∃ n, c.nonTerminals[cr.lhs]? = some n ∧
      (k ∈ n.leftRecursive ↔ cr.rhs.head? = some (.nonTerminal cr.lhs)) ∧
      (k ∈ n.ordinary ↔ cr.rhs.head? ≠ some (.nonTerminal cr.lhs))
  ascending (n : NonTerminal) : n ∈ c.nonTerminals.toList →
    n.ordinary.Pairwise (· < ·) ∧ n.leftRecursive.Pairwise (· < ·)

end CompiledGrammar

namespace Grammar

/-- What compilation asks of a grammar and the kinds that a lexer knows. -/
structure Valid (g : Grammar V) (lexer : Lexer) : Prop where
  name : ∀ r ∈ g.rules, IsName r.lhs
  rhs_ne_nil : ∀ r ∈ g.rules, r.rhs ≠ []
  symbol_ne_empty : ∀ r ∈ g.rules, ∀ s ∈ r.rhs, s.isEmpty = false
  two_le_length : ∀ r ∈ g.rules, r.rhs.head? = some (.nonTerminal r.lhs) → 2 ≤ r.rhs.length
  reducer : ∀ r ∈ g.rules, 1 < r.rhs.length → r.reducer ≠ none
  start : ∃ r ∈ g.rules, r.lhs = g.start
  defined : ∀ r ∈ g.rules, ∀ name, .nonTerminal name ∈ r.rhs → ∃ r' ∈ g.rules, r'.lhs = name
  recognized : ∀ r ∈ g.rules, ∀ kind, .terminal kind ∈ r.rhs → kind ∈ lexer.kinds

def entry (g : Grammar V) (name : String) : NonTerminal :=
  ⟨name, g.ruleNumbers name false, g.ruleNumbers name true⟩

variable {g : Grammar V} {lexer : Lexer} {c : CompiledGrammar V}

theorem compile_eq_ok_iff :
    g.compile lexer = .ok c ↔
      (∀ r ∈ g.rules, r.check = .ok ()) ∧ g.names.idxOf? g.start = some c.start ∧
        List.Forall₂ (fun r cr => compileRule g.names lexer r = .ok cr) g.rules c.rules.toList ∧
        c.nonTerminals.toList = g.names.map g.entry := by
  unfold compile
  rw [bind_eq_ok, Unique.exists_iff]
  apply and_congr forM_eq_ok_iff
  dsimp only
  cases hstart : g.names.idxOf? g.start with
  | none => simp [throw, throwThe, MonadExceptOf.throw]
  | some start =>
    simp only [bind_eq_ok, pure, Except.pure, Except.ok.injEq, Option.some.injEq, ← mapM_eq_ok_iff]
    constructor
    · rintro ⟨rules, hrules, rfl⟩
      exact ⟨rfl, hrules, rfl⟩
    · rintro ⟨rfl, hrules, hentries⟩
      refine ⟨_, hrules, ?_⟩
      change CompiledGrammar.mk _ _ (g.names.map g.entry).toArray = c
      rw [← hentries]

theorem mem_ruleNumbers {name : String} {b : Bool} {k : Nat} :
    k ∈ g.ruleNumbers name b ↔
      ∃ r, g.rules[k]? = some r ∧ r.lhs = name ∧ r.isLeftRecursive = b := by
  simp [ruleNumbers, List.mem_zipIdx_iff_getElem?]

theorem pairwise_ruleNumbers (name : String) (b : Bool) :
    (g.ruleNumbers name b).Pairwise (· < ·) := by
  have numbers : g.rules.zipIdx.map (·.2) = List.range' 0 g.rules.length := List.zipIdx_map_snd 0 _
  apply List.Pairwise.sublist (List.filter_sublist.map _)
  rw [numbers]
  exact List.pairwise_lt_range'

theorem nodup_numbers (name : String) : (g.entry name).numbers.Nodup := by
  have nodup (b : Bool) : (g.ruleNumbers name b).Nodup :=
    (pairwise_ruleNumbers name b).imp Nat.ne_of_lt
  apply (nodup false).append (nodup true)
  intro k hk hk'
  obtain ⟨r, hr, -, hb⟩ := mem_ruleNumbers.1 hk
  obtain ⟨r', hr', -, hb'⟩ := mem_ruleNumbers.1 hk'
  simp_all

theorem mem_numbers {name : String} {k : Nat} :
    k ∈ (g.entry name).numbers ↔ ∃ r, g.rules[k]? = some r ∧ r.lhs = name := by
  simp only [NonTerminal.numbers, entry, List.mem_append, mem_ruleNumbers]
  constructor
  · rintro (⟨r, hr, hlhs, -⟩ | ⟨r, hr, hlhs, -⟩) <;> exact ⟨r, hr, hlhs⟩
  · rintro ⟨r, hr, hlhs⟩
    cases hb : r.isLeftRecursive
    · exact .inl ⟨r, hr, hlhs, hb⟩
    · exact .inr ⟨r, hr, hlhs, hb⟩

theorem numbers_perm : (g.names.flatMap fun name => (g.entry name).numbers).Perm
    (List.range g.rules.length) := by
  have apart :
      g.names.Pairwise (Function.onFun List.Disjoint fun name => (g.entry name).numbers) := by
    apply g.names_nodup.imp
    intro a b hab k ha hb
    obtain ⟨r, hr, rfl⟩ := mem_numbers.1 ha
    obtain ⟨r', hr', rfl⟩ := mem_numbers.1 hb
    simp_all
  rw [List.perm_ext_iff_of_nodup (List.nodup_flatMap.2 ⟨fun name _ => nodup_numbers name, apart⟩)
    List.nodup_range]
  intro k
  simp only [List.mem_flatMap, List.mem_range, mem_numbers]
  constructor
  · rintro ⟨name, -, r, hr, -⟩
    exact (List.getElem?_eq_some_iff.1 hr).1
  · intro hk
    have hr := List.getElem?_eq_getElem hk
    exact ⟨_, mem_names.2 ⟨_, List.mem_of_getElem? hr, rfl⟩, _, hr, rfl⟩

theorem exists_resolve_iff {names : List String} {text : String} {s : Symbol} :
    (∃ slot, resolve names lexer text s = .ok slot) ↔
      (∀ name, s = .nonTerminal name → name ∈ names) ∧
        ∀ kind, s = .terminal kind → kind ∈ lexer.kinds := by
  cases s with
  | terminal kind =>
    by_cases hkind : kind ∈ lexer.kinds <;>
      simp [resolve, Lexer.recognizes, hkind, pure, Except.pure, throw, throwThe,
        MonadExceptOf.throw]
  | nonTerminal name =>
    cases hname : names.idxOf? name with
    | none =>
      have := List.idxOf?_eq_none_iff.1 hname
      simp [resolve, hname, this, throw, throwThe, MonadExceptOf.throw]
    | some i =>
      obtain ⟨hi, rfl, -⟩ := List.idxOf?_eq_some_iff.1 hname
      simp [resolve, hname, pure, Except.pure]

theorem exists_compileRule_iff {names : List String} {r : Rule V} :
    (∃ cr, compileRule names lexer r = .ok cr) ↔
      (∀ name, .nonTerminal name ∈ r.rhs → name ∈ names) ∧
        ∀ kind, .terminal kind ∈ r.rhs → kind ∈ lexer.kinds := by
  have resolved : (∃ cr, compileRule names lexer r = .ok cr) ↔
      ∃ slots, r.rhs.mapM (resolve names lexer r.text) = .ok slots := by
    simp [compileRule, bind_eq_ok, pure, Except.pure]
  rw [resolved, exists_mapM_eq_ok_iff]
  simp only [exists_resolve_iff]
  constructor
  · intro h
    exact ⟨fun name hs => (h _ hs).1 name rfl, fun kind hs => (h _ hs).2 kind rfl⟩
  · rintro ⟨hnames, hkinds⟩ s hs
    exact ⟨fun name h => hnames name (h ▸ hs), fun kind h => hkinds kind (h ▸ hs)⟩

theorem exists_compile_iff : (∃ c, g.compile lexer = .ok c) ↔
    (∀ r ∈ g.rules, r.check = .ok ()) ∧ g.start ∈ g.names ∧
      ∀ r ∈ g.rules, ∃ cr, compileRule g.names lexer r = .ok cr := by
  rw [← exists_mapM_eq_ok_iff]
  constructor
  · rintro ⟨c, hc⟩
    obtain ⟨hcheck, hstart, hrules, -⟩ := compile_eq_ok_iff.1 hc
    obtain ⟨hlt, hname, -⟩ := List.idxOf?_eq_some_iff.1 hstart
    exact ⟨hcheck, hname ▸ List.getElem_mem hlt, _, mapM_eq_ok_iff.2 hrules⟩
  · rintro ⟨hcheck, hstart, rules, hrules⟩
    obtain ⟨start, hi⟩ :=
      Option.ne_none_iff_exists'.1 (mt List.idxOf?_eq_none_iff.1 (not_not.2 hstart))
    exact ⟨⟨start, rules.toArray, (g.names.map g.entry).toArray⟩,
      compile_eq_ok_iff.2 ⟨hcheck, hi, mapM_eq_ok_iff.1 hrules, rfl⟩⟩

theorem exists_compile_iff_valid : (∃ c, g.compile lexer = .ok c) ↔ g.Valid lexer := by
  rw [exists_compile_iff]
  simp only [Rule.check_eq_ok_iff, exists_compileRule_iff, mem_names, isNonTerminalName_iff]
  constructor
  · rintro ⟨hcheck, hstart, hrules⟩
    exact {
      name := fun r hr => (hcheck r hr).1
      rhs_ne_nil := fun r hr => (hcheck r hr).2.1
      symbol_ne_empty := fun r hr => (hcheck r hr).2.2.1
      two_le_length := fun r hr h => (hcheck r hr).2.2.2.1 (beq_iff_eq.2 h)
      reducer := fun r hr hlen h => Nat.not_le.2 hlen ((hcheck r hr).2.2.2.2 h)
      start := hstart
      defined := fun r hr => (hrules r hr).1
      recognized := fun r hr => (hrules r hr).2 }
  · intro h
    refine ⟨fun r hr => ⟨h.name r hr, h.rhs_ne_nil r hr, h.symbol_ne_empty r hr, ?_, ?_⟩, h.start,
      fun r hr => ⟨h.defined r hr, h.recognized r hr⟩⟩
    · exact fun hrec => h.two_le_length r hr (beq_iff_eq.1 hrec)
    · exact fun hnone => Nat.not_lt.1 fun hlen => h.reducer r hr hlen hnone

theorem mem_ruleNumbers_of_getElem? {r : Rule V} {k : Nat} (hr : g.rules[k]? = some r) {b : Bool} :
    k ∈ g.ruleNumbers r.lhs b ↔ r.isLeftRecursive = b := by
  simp [mem_ruleNumbers, hr]

theorem tabulates_of_compile (h : g.compile lexer = .ok c) : c.Tabulates g := by
  have hc := compilesTo_of_compile h
  have hnames : c.names = g.names := hc.names
  obtain ⟨-, -, -, hentries⟩ := compile_eq_ok_iff.1 h
  have hsize : c.rules.size = g.rules.length := hc.rules.length_eq.symm
  constructor
  · exact hnames ▸ g.names_nodup
  · exact fun name => hnames ▸ mem_names
  · exact hnames ▸ hc.start
  · rw [hnames]
    exact hc.rules.imp fun r cr hr => ⟨hr.lhs, hr.rhs, hr.reducer, hr.failHard⟩
  · rw [hentries, List.flatMap_map, hsize]
    exact numbers_perm
  · intro k cr hk
    rw [← Array.getElem?_toList] at hk
    obtain ⟨r, hr, hcr⟩ := exists_left_of_getElem? hc.rules hk
    have hrec := hcr.isLeftRecursive_eq g.names_nodup
    refine ⟨g.entry r.lhs, ?_, ?_, ?_⟩
    · rw [← Array.getElem?_toList, hentries, List.getElem?_map, hcr.lhs, Option.map_some]
    · rw [entry, mem_ruleNumbers_of_getElem? hr, hrec, CompiledRule.isLeftRecursive, beq_iff_eq]
    · rw [entry, mem_ruleNumbers_of_getElem? hr, hrec, CompiledRule.isLeftRecursive,
        beq_eq_false_iff_ne]
  · intro n hn
    rw [hentries, List.mem_map] at hn
    obtain ⟨name, -, rfl⟩ := hn
    exact ⟨pairwise_ruleNumbers name false, pairwise_ruleNumbers name true⟩

/-- A grammar compiles if and only if it is valid, and then the tables say what it says. -/
theorem compile_spec (g : Grammar V) (lexer : Lexer) :
    ((∃ c, g.compile lexer = .ok c) ↔ g.Valid lexer) ∧
      ∀ c, g.compile lexer = .ok c → c.Tabulates g :=
  ⟨exists_compile_iff_valid, fun _ => tabulates_of_compile⟩

def interleaved : Grammar Value where
  start := "a"
  rules :=
    let rule (lhs : String) (rhs : List Symbol) : Rule Value := {
      lhs := lhs
      rhs := rhs
      reducer := some fun _ values => pure (.list values) }
    [rule "a" [.nonTerminal "b", .terminal .name], rule "b" [.terminal .name],
      rule "a" [.nonTerminal "a", .nonTerminal "b"], rule "b" [.nonTerminal "b", .terminal .number],
      { lhs := "a", rhs := [.terminal .number], failHard := true }]

theorem compile_spec_interleaved :
    ∃ (lexer : Lexer) (c : CompiledGrammar Value), interleaved.compile lexer = .ok c ∧
      c.nonTerminals.toList = [⟨"a", [0, 4], [2]⟩, ⟨"b", [1], [3]⟩] ∧
        interleaved.Valid lexer ∧ c.Tabulates interleaved := by
  have compiled : ∃ c, interleaved.compile {
        specs := [], pattern := .empty, groups := [], keywords := [], newlines := .keep
        kinds := Kind.categories } = .ok c ∧
      c.nonTerminals.toList = [⟨"a", [0, 4], [2]⟩, ⟨"b", [1], [3]⟩] := ⟨_, rfl, rfl⟩
  obtain ⟨c, hc, htables⟩ := compiled
  obtain ⟨hvalid, htabulates⟩ := compile_spec interleaved _
  exact ⟨_, c, hc, htables, hvalid.1 ⟨c, hc⟩, htabulates c hc⟩

end Grammar

namespace Parser

variable {g : Grammar V} {lexer : Lexer} {p : Parser V}

theorem ofGrammar_eq_ok_iff :
    ofGrammar g lexer = .ok p ↔ ∃ c, g.compile lexer = .ok c ∧ p = ⟨lexer, c⟩ := by
  rw [ofGrammar, bind_eq_ok]
  simp only [pure, Except.pure, Except.ok.injEq, eq_comm]

theorem exists_ofGrammar_iff :
    (∃ p, ofGrammar g lexer = .ok p) ↔ ∃ c, g.compile lexer = .ok c := by
  simp [ofGrammar_eq_ok_iff]

end Parser

end Packrat
