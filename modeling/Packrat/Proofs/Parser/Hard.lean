import Packrat.Proofs.Lexer.Failures
import Packrat.Proofs.Parser.Diagnostics
import Packrat.Proofs.Parser.Plain
import Packrat.Proofs.Parser.Required
import Packrat.Proofs.Parser.Softened

namespace Packrat

variable {V : Type}

theorem Error.required_withSource {e : Error} {source : Source} :
    (e.withSource source).Required ↔ e.Required :=
  Iff.rfl

def Rule.RaisesNoRequired (r : Rule V) : Prop :=
  ∀ f, r.reducer = some f → ∀ context values e, f context values = .error e → ¬e.Required

/-- The action leaves errors of hard rules to the matcher. -/
def CustomSpec.RaisesNoRequired (s : CustomSpec) : Prop := ∀ l e, s.action l = .error e → ¬e.Required

namespace Parser

variable {c : Config} {g : Grammar V} {lexer : Lexer} {p : Parser V} {source : Source} {e : Error}
  {tokens : List Token}

theorem not_required_of_tokens (hserves : lexer.Serves c) (hp : ofGrammar g lexer = .ok p)
    (hactions : ∀ s ∈ c.custom, s.RaisesNoRequired) (h : p.tokens source = .error e) :
    ¬e.Required := by
  obtain ⟨d, -, rfl⟩ := ofGrammar_eq_ok_iff.1 hp
  obtain ⟨raw, hlist, rfl⟩ := exists_list_of_tokens h
  rw [Error.required_withSource]
  rcases Lexer.category_of_list hserves hlist with hlex | ⟨s, hs, l, hl⟩
  · rintro ⟨nonTerminal, expected, found, hcause⟩
    rw [hcause] at hlex
    cases hlex
  · exact hactions s hs l raw hl

theorem broken_of_required [OfToken V] (htokens : p.tokens source = .ok tokens)
    (h : p.parse source = .error e) (hrequired : e.Required) :
    ∃ raw, (Problem.mk p.grammar tokens.toArray).run.1 = .broken raw ∧
      e = raw.withSource source := by
  rcases broken_of_error htokens h with rfl | hbroken
  · obtain ⟨nonTerminal, expected, found, hcause⟩ := hrequired
    cases hcause
  · exact hbroken

namespace Problem

variable {p : Problem V}

theorem cause_required (rule : CompiledRule V) (slot : Slot) (place furthest : Nat) {t : Token}
    (ht : p.tokenAt place = some t) :
    (p.required rule slot place furthest).cause =
      .requiredMatch ("#" ++ p.grammar.name rule.lhs) (p.grammar.slotName slot) t.descriptor := by
  simp [required, ht]

theorem demands_of_explains (hp : g.CompilesTo p.grammar)
    (hreducers : ∀ r ∈ g.rules, r.RaisesNoRequired) (h : p.Explains g e) (hrequired : e.Required) :
    p.Demands g e := by
  rcases h with hrejects | hdemands
  · cases hrejects with
    | reducer hrule hf hresult =>
      obtain ⟨r, hr, hcr⟩ := hp.exists_rule hrule
      exact absurd hrequired (hreducers r hr _ (hcr.reducer.symm.trans hf) _ _ _ hresult)
    | nothing i start stop =>
      obtain ⟨nonTerminal, expected, found, hcause⟩ := hrequired
      cases hcause
  · exact hdemands

end Problem

/-- The error of a hard rule names the left side of a hard rule and a symbol of it that is missing.
The symbols before that one derive from tokens in front of a place, and the error describes and
marks the token at the place, or the last one. -/
theorem missing_of_requiredMatch (hserves : lexer.Serves c) (hp : ofGrammar g lexer = .ok p)
    [OfToken V] (hactions : ∀ s ∈ c.custom, s.RaisesNoRequired)
    (hreducers : ∀ r ∈ g.rules, r.RaisesNoRequired) (source : Source) (e : Error)
    (h : p.parse source = .error e) (nonTerminal expected found : String)
    (hcause : e.cause = .requiredMatch nonTerminal expected found) :
    ∃ tokens, p.tokens source = .ok tokens ∧ ∃ r k symbol start place t,
      g.Missing tokens r k symbol start place ∧ nonTerminal = "#" ++ r.lhs ∧
        expected = symbol.display ∧ tokens[min place (tokens.length - 1)]? = some t ∧
          found = t.descriptor ∧ e.marker = some t.marker := by
  have hrequired : e.Required := ⟨nonTerminal, expected, found, hcause⟩
  cases htokens : p.tokens source with
  | error e' =>
    cases (parse_eq_error htokens).symm.trans h
    exact absurd hrequired (not_required_of_tokens hserves hp hactions htokens)
  | ok tokens =>
    obtain ⟨raw, hrun, rfl⟩ := broken_of_required htokens h hrequired
    obtain ⟨d, hd, rfl⟩ := ofGrammar_eq_ok_iff.1 hp
    have hc := Grammar.compilesTo_of_compile hd
    obtain @⟨r, k, start, place, symbol, rule, slot, furthest, hmissing, hrule, hslot⟩ :=
      Problem.demands_of_explains hc hreducers (Problem.explains_of_run hc hrun)
        (Error.required_withSource.1 hrequired)
    obtain ⟨t, ht⟩ := Problem.exists_tokenAt (p := ⟨d, tokens.toArray⟩)
      (length_pos_of_tokens htokens) place
    have hcause := (Problem.cause_required rule slot place furthest ht).symm.trans hcause
    rw [hrule, hslot] at hcause
    cases hcause
    refine ⟨tokens, rfl, r, k, symbol, start, place, t, hmissing, rfl, rfl, ?_, rfl, ?_⟩
    · simpa [Problem.tokenAt] using ht
    · simp [Error.withSource, Problem.required, ht]

def sums : Grammar Value where
  start := "sum"
  rules :=
    let list : Option (Reducer Value) := some fun _ values => pure (.list values)
    [{ lhs := "sum", rhs := [.terminal .number] },
      { lhs := "sum"
        rhs := [.nonTerminal "sum", .terminal .name, .terminal .number]
        reducer := list
        failHard := true }]

theorem missing_of_requiredMatch_sums :
    ∃ lexer, Lexer.ofConfig .bare = .ok lexer ∧ ∃ p, ofGrammar sums lexer = .ok p ∧
      (∀ r ∈ sums.rules, r.RaisesNoRequired) ∧ ∃ e, p.parse ⟨"", "1 x 2 x y"⟩ = .error e ∧
        e.cause = .requiredMatch "#sum" "NUMBER" "NAME(\"y\")" ∧
          ∃ tokens, p.tokens ⟨"", "1 x 2 x y"⟩ = .ok tokens ∧ ∃ r k symbol start place t,
            sums.Missing tokens r k symbol start place ∧ "#sum" = "#" ++ r.lhs ∧
              "NUMBER" = symbol.display ∧ tokens[min place (tokens.length - 1)]? = some t ∧
                "NAME(\"y\")" = t.descriptor ∧ e.marker = some t.marker := by
  obtain ⟨lexer, hlexer, p, hp, hplain⟩ :
      ∃ lexer, Lexer.ofConfig .bare = .ok lexer ∧ ∃ p, ofGrammar sums lexer = .ok p ∧
        ((p.plain ⟨"", "1 x 2 x y"⟩).bind errorOf?).map (·.cause) =
          some (.requiredMatch "#sum" "NUMBER" "NAME(\"y\")") := by
    decide +kernel
  have hreducers : ∀ r ∈ sums.rules, r.RaisesNoRequired := by
    intro r hr f hf context values e he
    simp only [sums, List.mem_cons, List.not_mem_nil, or_false] at hr
    rcases hr with rfl | rfl <;> cases hf
    cases he
  have hacyclic : sums.Acyclic := Grammar.acyclic_of_descends (fun _ => 0) (by decide)
  obtain ⟨e, hparse, hcause⟩ := error_of_plain hp hacyclic hplain
  exact ⟨lexer, hlexer, p, hp, hreducers, e, hparse, hcause,
    missing_of_requiredMatch (Lexer.serves_of_ofConfig hlexer) hp nofun hreducers _ _ hparse _ _ _
      hcause⟩

def demanding : Config :=
  { Config.bare with
    custom := [⟨"@", [], fun _ => throw { cause := .requiredMatch "#word" "NUMBER" "@" }⟩] }

def words : Grammar Value where
  start := "word"
  rules := [{ lhs := "word", rhs := [.terminal .name] }]

/-- An action may raise the error of a hard rule where the grammar has no such rule. -/
theorem requiredMatch_demanding :
    ∃ lexer, Lexer.ofConfig demanding = .ok lexer ∧ ∃ p, ofGrammar words lexer = .ok p ∧
      (∀ r ∈ words.rules, r.RaisesNoRequired) ∧ ∃ e, p.parse ⟨"", "@"⟩ = .error e ∧
        e.cause = .requiredMatch "#word" "NUMBER" "@" ∧ e.marker = none ∧
          ∀ r ∈ words.rules, r.failHard = false := by
  obtain ⟨lexer, hlexer, p, hp, hcause⟩ :
      ∃ lexer, Lexer.ofConfig demanding = .ok lexer ∧ ∃ p, ofGrammar words lexer = .ok p ∧
        (errorOf? (p.tokens ⟨"", "@"⟩)).map (fun e => (e.cause, e.marker)) =
          some (.requiredMatch "#word" "NUMBER" "@", none) := by
    decide +kernel
  obtain ⟨e, he, heq⟩ := Option.map_eq_some_iff.1 hcause
  obtain ⟨hcause, hmarker⟩ := Prod.mk.inj heq
  exact ⟨lexer, hlexer, p, hp, List.forall_mem_singleton.2 nofun, e,
    parse_eq_error (eq_of_errorOf? he), hcause, hmarker, by decide⟩

end Parser

end Packrat
