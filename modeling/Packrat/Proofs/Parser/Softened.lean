import Packrat.Proofs.Grammar.FirstSymbols
import Packrat.Proofs.Grammar.Valid
import Packrat.Proofs.Parser.Memo
import Packrat.Proofs.Parser.Mirror

namespace Packrat

variable {V : Type}

def Grammar.softened (g : Grammar V) : Grammar V :=
  { g with rules := g.rules.map fun r => { r with failHard := false } }

def Error.Required (e : Error) : Prop :=
  ∃ nonTerminal expected found, e.cause = .requiredMatch nonTerminal expected found

/-- Another error, which tells `e` from all others. -/
def Error.told (e e' : Error) : Error := .config (if e' = e then "this" else "another")

theorem Error.eq_of_told {e e' : Error} (h : e.told e = e.told e') : e' = e := by
  by_contra hne
  simp [told, config, hne] at h

def Reducer.mapErrors (f : Error → Error) (reducer : Reducer V) : Reducer V :=
  fun context values => (reducer context values).mapError f

@[simp] theorem Reducer.mapErrors_id : Reducer.mapErrors (V := V) id = id := by
  funext reducer context values
  change (reducer context values).mapError id = reducer context values
  cases reducer context values <;> rfl

structure Change : Type where
  errors : Error → Error := id
  hard : Bool → Bool := id

namespace Change

def soften : Change := { hard := fun _ => false }

variable (a : Change)

def rule (r : Rule V) : Rule V :=
  { r with reducer := r.reducer.map (Reducer.mapErrors a.errors), failHard := a.hard r.failHard }

def compiledRule (r : CompiledRule V) : CompiledRule V :=
  { r with reducer := r.reducer.map (Reducer.mapErrors a.errors), failHard := a.hard r.failHard }

def grammar (g : Grammar V) : Grammar V := { g with rules := g.rules.map a.rule }

def compiled (c : CompiledGrammar V) : CompiledGrammar V :=
  { c with rules := c.rules.map a.compiledRule }

variable {g : Grammar V} {c : CompiledGrammar V} {lexer : Lexer}

@[simp] theorem compiledRule_keep : compiledRule (V := V) {} = id := by
  funext r
  simp [compiledRule]

@[simp] theorem compiled_keep (c : CompiledGrammar V) : compiled {} c = c := by simp [compiled]

theorem grammar_soften (g : Grammar V) : soften.grammar g = g.softened := by
  simp [Grammar.softened, grammar, rule, soften]

@[simp] theorem start_grammar (g : Grammar V) : (a.grammar g).start = g.start := rfl

@[simp] theorem rules_grammar (g : Grammar V) : (a.grammar g).rules = g.rules.map a.rule := rfl

@[simp] theorem check_rule (r : Rule V) : (a.rule r).check = r.check := by
  unfold Rule.check
  rw [show (a.rule r).reducer.isNone = r.reducer.isNone from Option.isNone_map]
  rfl

@[simp] theorem names_grammar (g : Grammar V) : (a.grammar g).names = g.names := by
  rw [Grammar.names, rules_grammar, List.foldl_map]
  rfl

@[simp] theorem entry_grammar (g : Grammar V) : (a.grammar g).entry = g.entry := by
  funext name
  simp only [Grammar.entry, Grammar.ruleNumbers, grammar, List.zipIdx_map, List.filter_map,
    List.map_map]
  rfl

@[simp] theorem start_compiled (c : CompiledGrammar V) : (a.compiled c).start = c.start := rfl

@[simp] theorem nonTerminals_compiled (c : CompiledGrammar V) :
    (a.compiled c).nonTerminals = c.nonTerminals := rfl

@[simp] theorem rules_compiled (c : CompiledGrammar V) :
    (a.compiled c).rules = c.rules.map a.compiledRule := rfl

@[simp] theorem rulesOf_compiled (c : CompiledGrammar V) (i : Nat) (b : Bool) :
    (a.compiled c).rulesOf i b = (c.rulesOf i b).map a.compiledRule := by
  simp only [CompiledGrammar.rulesOf, compiled, Array.toList_map, List.filter_map]
  rfl

theorem compileRule_rule {names : List String} {r : Rule V} {cr : CompiledRule V}
    (h : Grammar.compileRule names lexer r = .ok cr) :
    Grammar.compileRule names lexer (a.rule r) = .ok (a.compiledRule cr) := by
  obtain ⟨slots, hslots, h⟩ := bind_eq_ok.1 h
  cases h
  exact bind_eq_ok.2 ⟨slots, hslots, rfl⟩

theorem compile_grammar (h : g.compile lexer = .ok c) :
    (a.grammar g).compile lexer = .ok (a.compiled c) := by
  rw [Grammar.compile_eq_ok_iff] at h ⊢
  obtain ⟨hcheck, hstart, hrules, hentries⟩ := h
  refine ⟨?_, ?_, ?_, ?_⟩
  · simpa using hcheck
  · simpa using hstart
  · simp only [names_grammar, rules_compiled, rules_grammar, Array.toList_map,
      List.forall₂_map_left_iff, List.forall₂_map_right_iff]
    exact hrules.imp fun r cr => a.compileRule_rule
  · simpa using hentries

end Change

namespace Parser

variable {g : Grammar V} {c : CompiledGrammar V} {lexer : Lexer} {tokens : Array Token}

namespace Comparison

def upToRequired (c : CompiledGrammar V) (alike : Error → Error → Prop) : Comparison where
  size := c.nonTerminals.size
  number := id
  alike := alike
  final := Error.Required

theorem results_mapErrors {k : Comparison} {f f' : Error → Error} (h : ∀ e, k.alike (f e) (f' e))
    (reducer : Reducer V) (context : Context) (values : List V) :
    k.Results (Reducer.mapErrors f reducer context values)
      (Reducer.mapErrors f' reducer context values) := by
  unfold Reducer.mapErrors
  cases reducer context values with
  | ok v => rfl
  | error e => exact ⟨_, rfl, h e⟩

end Comparison

section

variable (a b : Change) (alike : Error → Error → Prop)
  (herrors : ∀ e, alike (a.errors e) (b.errors e))
  (hnothing : ∀ e : Error, e.cause = .semantic "nothing to reduce" → alike e e)
  (hhard : ∀ x, a.hard x = false → b.hard x = false)

include herrors hnothing hhard

theorem ruleLike_compiledRule (hc : g.CompilesTo c) {r : CompiledRule V} (hr : r ∈ c.rules.toList) :
    (Comparison.upToRequired c alike).RuleLike ⟨a.compiled c, tokens⟩ ⟨b.compiled c, tokens⟩
      (a.compiledRule r) (b.compiledRule r) where
  lhs := rfl
  rhs := by simp [Change.compiledRule, Comparison.upToRequired]
  slot_lt_size j hj := hc.slot_lt_size hr hj
  context start stop := rfl
  reducer f hf := by
    obtain ⟨f, hr, rfl⟩ := Option.map_eq_some_iff.1 hf
    refine ⟨Reducer.mapErrors b.errors f, by simp [Change.compiledRule, hr], fun start stop => ?_⟩
    exact Comparison.results_mapErrors herrors f _
  no_reducer hnone :=
    ⟨by simpa [Change.compiledRule] using hnone, fun _ _ => .inr (hnothing _ rfl)⟩
  soft := hhard r.failHard
  hard slot place furthest _ _ := .inl ⟨_, _, _, rfl⟩

theorem agree_compiled [OfToken V] (h : g.compile lexer = .ok c) (tokens : Array Token) :
    (Comparison.upToRequired c alike).Agree
      (Problem.mk (a.compiled c) tokens).run (Problem.mk (b.compiled c) tokens).run := by
  have hc := Grammar.compilesTo_of_compile h
  have hcompares : (Comparison.upToRequired c alike).Compares
      (Problem.mk (a.compiled c) tokens) (Problem.mk (b.compiled c) tokens) := by
    refine .of_rules rfl rfl rfl rfl (fun _ => id) (fun _ _ _ _ => id) fun i leftRecursive hi => ?_
    simp only [Change.rulesOf_compiled]
    rw [List.forall₂_map_left_iff, List.forall₂_map_right_iff]
    apply List.forall₂_same.2
    intro r hr
    apply ruleLike_compiledRule a b alike herrors hnothing hhard hc
    exact (Grammar.CompilesTo.mem_rulesOf.1 hr).1
  exact hcompares.agree_run (Grammar.compilesTo_of_compile (a.compile_grammar h))
    (Grammar.compilesTo_of_compile (b.compile_grammar h))

end

namespace Problem

variable [OfToken V] {e : Error}

def mapErrors (f : Error → Error) (p : Problem V) : Problem V :=
  { p with grammar := Change.compiled { errors := f } p.grammar }

/-- The run ends in an error of a reducer: whatever the reducers' errors are changed to, it ends in
the changed one. -/
def Raises (p : Problem V) (e : Error) : Prop := ∀ f, (p.mapErrors f).run.1 = .broken (f e)

theorem Raises.run_eq {p : Problem V} (h : p.Raises e) : p.run.1 = .broken e := by
  simpa [mapErrors] using h id

theorem raises_of_run (h : g.compile lexer = .ok c) (hrun : (Problem.mk c tokens).run.1 = .broken e)
    (hrequired : ¬e.Required) (hnothing : e.cause ≠ .semantic "nothing to reduce") :
    (Problem.mk c tokens).Raises e := by
  intro f
  have hagree := agree_compiled {} { errors := f }
    (fun e e' => e' = f e ∨ e.cause = .semantic "nothing to reduce")
    (fun e => .inl rfl) (fun e => .inr) (fun x => id) h tokens
  rw [Change.compiled_keep] at hagree
  obtain ⟨e', he', halike⟩ := (hagree.exists_broken hrun).resolve_left hrequired
  rw [← halike.resolve_right hnothing]
  exact he'

theorem Raises.run_soften (hraises : (Problem.mk c tokens).Raises e)
    (h : g.compile lexer = .ok c) :
    (Problem.mk (Change.soften.compiled c) tokens).run.1 = .broken e := by
  have hagree := agree_compiled { errors := e.told } .soften
    (fun e' e'' => e' = e.told e'' ∨ e'.cause = .semantic "nothing to reduce")
    (fun e => .inl rfl) (fun e => .inr) (fun x _ => rfl) h tokens
  have hother : ¬(e.told e).Required := nofun
  obtain ⟨e', he', halike⟩ := (hagree.exists_broken (hraises e.told)).resolve_left hother
  rw [← Error.eq_of_told (halike.resolve_right nofun)]
  exact he'

end Problem

theorem parse_soften_eq [OfToken V] (h : g.compile lexer = .ok c) (source : Source) :
    (∃ e, (Parser.mk lexer c).parse source = .error e ∧ e.Required) ∨
      (Parser.mk lexer (Change.soften.compiled c)).parse source =
        (Parser.mk lexer c).parse source := by
  cases htokens : (Parser.mk lexer c).tokens source with
  | error e =>
    rw [parse_eq_error htokens, parse_eq_error (p := ⟨lexer, Change.soften.compiled c⟩) htokens]
    exact .inr rfl
  | ok tokens =>
    have hagree := agree_compiled {} .soften (fun e e' => e' = e) (fun _ => rfl) (fun _ _ => rfl)
      (fun _ _ => rfl) h tokens.toArray
    rw [Change.compiled_keep] at hagree
    rcases hagree.outcome_eq (p := ⟨c, tokens.toArray⟩)
      (q := ⟨Change.soften.compiled c, tokens.toArray⟩) (fun _ _ => id) rfl source with
      ⟨e, he, hfinal⟩ | heq
    · exact .inl ⟨_, parse_of_broken htokens he, hfinal⟩
    · rw [parse_eq_outcome htokens,
        parse_eq_outcome (p := ⟨lexer, Change.soften.compiled c⟩) htokens]
      exact .inr heq

/-- Hard rules turn results into their errors and never into other results. Errors of the lexer and
of reducers are the same without them. -/
theorem parse_softened [OfToken V] {p : Parser V} (h : ofGrammar g lexer = .ok p) :
    ∃ soft, ofGrammar g.softened lexer = .ok soft ∧ ∀ source,
      (∀ outcome, p.parse source = .ok outcome → soft.parse source = .ok outcome) ∧
      (∀ e, p.tokens source = .error e →
        p.parse source = .error e ∧ soft.parse source = .error e) ∧
      (∀ tokens e, p.tokens source = .ok tokens →
        (Problem.mk p.grammar tokens.toArray).Raises e →
          p.parse source = .error (e.withSource source) ∧
            soft.parse source = .error (e.withSource source)) ∧
      ∀ e, p.parse source = .error e → soft.parse source = .error e ∨ e.Required := by
  obtain ⟨c, hc, rfl⟩ := ofGrammar_eq_ok_iff.1 h
  have hsoft : g.softened.compile lexer = .ok (Change.soften.compiled c) := by
    rw [← Change.grammar_soften]
    exact Change.soften.compile_grammar hc
  refine ⟨_, ofGrammar_eq_ok_iff.2 ⟨_, hsoft, rfl⟩, fun source => ?_⟩
  have hsame := parse_soften_eq hc source
  refine ⟨?_, ?_, ?_, ?_⟩
  · intro outcome hparse
    obtain ⟨e, he, -⟩ | heq := hsame
    · cases hparse.symm.trans he
    · exact heq.trans hparse
  · intro e he
    exact ⟨parse_eq_error he, parse_eq_error (p := ⟨lexer, Change.soften.compiled c⟩) he⟩
  · intro tokens e htokens hraises
    constructor
    · exact parse_of_broken htokens hraises.run_eq
    · apply parse_of_broken (p := ⟨lexer, Change.soften.compiled c⟩) htokens
      exact hraises.run_soften hc
  · intro e he
    obtain ⟨e', he', hrequired⟩ | heq := hsame
    · cases he.symm.trans he'
      exact .inr hrequired
    · exact .inl (heq.trans he)

def strict : Grammar Value where
  start := "item"
  rules := [
    { lhs := "item"
      rhs := [.terminal .number]
      reducer := some fun context _ => throw (context.error "no number") },
    { lhs := "item"
      rhs := [.terminal .name, .terminal .number]
      reducer := some fun _ values => pure (.list values)
      failHard := true },
    { lhs := "item", rhs := [.terminal .name] }]

theorem parse_softened_strict :
    ∃ lexer, Lexer.ofConfig .bare = .ok lexer ∧ ∃ p, ofGrammar strict lexer = .ok p ∧
      ∃ soft, ofGrammar strict.softened lexer = .ok soft ∧
        (∃ outcome, p.parse ⟨"", "x 1"⟩ = .ok outcome ∧ soft.parse ⟨"", "x 1"⟩ = .ok outcome) ∧
        ∃ e, e.cause = .semantic "no number" ∧
          p.parse ⟨"", "1"⟩ = .error e ∧ soft.parse ⟨"", "1"⟩ = .error e := by
  obtain ⟨lexer, hlexer, p, hp, matched, hmatched, hfound, refused, hrefused, hbroken⟩ :
      ∃ lexer, Lexer.ofConfig .bare = .ok lexer ∧ ∃ p, ofGrammar strict lexer = .ok p ∧
        ∃ matched, p.tokens ⟨"", "x 1"⟩ = .ok matched ∧
          (((Problem.mk p.grammar matched.toArray).unmemoised
            (Problem.mk p.grammar matched.toArray).depth p.grammar.start 0 0).bind
              (·.1.found?)).isSome = true ∧
        ∃ refused, p.tokens ⟨"", "1"⟩ = .ok refused ∧
          (((Problem.mk p.grammar refused.toArray).unmemoised
            (Problem.mk p.grammar refused.toArray).depth p.grammar.start 0 0).bind
              (·.1.error?)).map (·.cause) = some (.semantic "no number") := by
    decide +kernel
  obtain ⟨soft, hsoft, hsame⟩ := parse_softened hp
  obtain ⟨c, hc, rfl⟩ := ofGrammar_eq_ok_iff.1 hp
  have hacyclic : strict.Acyclic := Grammar.acyclic_of_descends (fun _ => 0) (by decide)
  have hrun (tokens : Array Token) := Problem.unmemoised_eq (p := ⟨c, tokens⟩)
    (Grammar.compilesTo_of_compile hc) hacyclic (Nat.le_refl _)
  rw [hrun, Option.bind_some] at hfound hbroken
  refine ⟨lexer, hlexer, _, hp, soft, hsoft, ?_, ?_⟩
  · obtain ⟨step, hstep⟩ := Option.isSome_iff_exists.1 hfound
    have hparse := parse_of_found hmatched (Answer.found?_eq_some_iff.1 hstep)
    exact ⟨_, hparse, (hsame _).1 _ hparse⟩
  · obtain ⟨e, he, hcause⟩ := Option.map_eq_some_iff.1 hbroken
    have hraises := Problem.raises_of_run hc (Answer.error?_eq_some_iff.1 he)
      (by simp [Error.Required, hcause]) (by simp [hcause])
    exact ⟨e.withSource _, hcause, (hsame _).2.2.1 _ _ hrefused hraises⟩

end Parser

end Packrat
