import Packrat.Proofs.Calc.Complete
import Packrat.Proofs.Calc.Sound
import Packrat.Proofs.Parser.Memo

namespace Packrat

namespace Parser

variable {V : Type} [OfToken V] {p : Parser V} {source : Source} {tokens : List Token}

theorem parseValue_of_found {step : Step V} (htokens : p.tokens source = .ok tokens)
    (h : (Problem.mk p.grammar tokens.toArray).run.1 = .found step) :
    p.parseValue source = .ok step.value := by
  rw [parseValue, parse, trace, htokens]
  dsimp only
  rw [h]
  rfl

theorem parseValue_of_broken {e : Error} (htokens : p.tokens source = .ok tokens)
    (h : (Problem.mk p.grammar tokens.toArray).run.1 = .broken e) :
    p.parseValue source = .error (e.withSource source) := by
  rw [parseValue, parse, trace, htokens]
  dsimp only
  rw [h]
  rfl

end Parser

namespace Calc

open Packrat.Parser Trial Problem

variable {tokens : List Token} {lexer : Lexer} {p : Parser Value} {expression : String}

theorem unmemoised_whole (tokens : List Token) (rounds : Nat) :
    (problem tokens).unmemoised (rounds + 1) compiled.start 0 =
      ((problem tokens).tryChoice ((problem tokens).unmemoised rounds) 0 none [whole]).andElse
        ((problem tokens).tryGrow ((problem tokens).unmemoised rounds) 0 [] rounds) .missed := by
  rw [← rulesOf_whole, ← rulesOf_whole_leftRecursive]
  rfl

def StandsWhole (tokens : List Token) (step : Step Value) : Prop :=
  ∃ e x ts t, Yields .sum e ts ∧ e.value? = some x ∧ step.value = .number x ∧ t.kind = .eof ∧
    tokens = ts ++ t :: tokens.drop step.next

/-- The errors of texts that are not expressions. Something before the end may be divided by zero. -/
def Refuses (e : Error) : Prop :=
  (∃ nonTerminal expected found, e.cause = .requiredMatch nonTerminal expected found) ∨
    DividesByZero e

theorem refuses_required (slot : Slot) (place furthest : Nat) :
    Refuses ((problem tokens).required whole slot place furthest) := .inl ⟨_, _, _, rfl⟩

theorem ensures_whole (hfits : ∀ t ∈ tokens, t.Fits) (rounds : Nat) :
    ((problem tokens).unmemoised (rounds + 1) compiled.start 0).Ensures (StandsWhole tokens) False
      Refuses := by
  rw [unmemoised_whole, tryChoice_none_cons]
  refine Ensures.andElse (M := False) (P := StandsWhole tokens) ?_ (fun base hbase => ?_) False.elim
  · refine Ensures.andElse (M := False)
      (P := fun x => ∃ v w, x.1 = [v, w] ∧ StandsWhole tokens ⟨v, x.2⟩) ?_ ?_ False.elim
    · have hsum : ((problem tokens).unmemoised rounds Level.sum.index 0).Ensures
          (Stands tokens .sum 0) True Refuses :=
        (sound_unmemoised hfits rounds .sum 0).mono (fun _ => id) id fun _ => .inr
      refine ensures_trySequence_cons_hard rfl hsum (fun step hstep => ?_) (refuses_required _ _)
      obtain ⟨e, x, ts, hyields, hvalue, hstep, hdrop⟩ := hstep
      refine ensures_trySequence_cons_hard rfl (ensures_terminal _) ?_ (refuses_required _ _)
      rintro _ ⟨t, ht, hkind, rfl⟩
      refine .found ⟨_, _, rfl, e, x, ts, t, hyields, hvalue, hstep, hkind, ?_⟩
      calc tokens = ts ++ tokens.drop step.next := hdrop
        _ = ts ++ t :: tokens.drop (step.next + 1) := by rw [drop_eq_cons ht]
    · rintro ⟨values, next⟩ ⟨v, w, rfl, hstands⟩
      exact ensures_tryReduce rfl (fun context y hy => by cases hy; exact hstands)
        fun context e he => by cases he
  · have hchoice (base : Step Value) (_ : StandsWhole tokens base) :
        ((problem tokens).tryChoice ((problem tokens).unmemoised rounds) 0 (some base) []).Ensures
          (StandsWhole tokens) True Refuses := .missed trivial
    exact ensures_tryGrow hchoice rounds hbase

theorem ends_eof {eof : Token} (h : eof.kind = .eof) (l : Level) : Ends l [eof] := by
  intro op hop t ht
  cases ht
  rw [h]
  nofun

theorem settles_whole {first : List Token} {eof : Token} {e : Expr} {rounds : Nat}
    (htokens : tokens = first ++ [eof]) (hfits : ∀ t ∈ tokens, t.Fits) (heof : eof.kind = .eof)
    (h : Yields .sum e first) (hrounds : 4 * first.length + 4 < rounds) :
    ((problem tokens).unmemoised (rounds + 1) compiled.start 0).Settles DividesByZero e.value?
      fun x => .found (covering 0 (first ++ [eof]) x) := by
  have hmatches : Matches tokens ((problem tokens).unmemoised rounds) .sum 0 first e.value? :=
    (reaches_of_yields hfits h).matches htokens (ends_eof heof .sum) hrounds
  have hlast : (problem tokens).tokens[0 + first.length]? = some eof := by
    rw [getElem?_problem, htokens, Nat.zero_add, List.getElem?_concat_length]
  have hend (x : Float) : ((problem tokens).trySequence ((problem tokens).unmemoised rounds) whole
      false [.terminal .eof] (covering 0 first x).next).Leads
        (.found ([ofToken eof], 0 + first.length + 1)) :=
    leads_trySequence_last (leads_terminal hlast heof)
  have hchoice : ((problem tokens).tryChoice ((problem tokens).unmemoised rounds) 0 none
      [whole]).Settles DividesByZero e.value? fun x => .found (covering 0 (first ++ [eof]) x) := by
    rw [tryChoice_none_cons]
    unfold covering
    rw [List.length_append, ← Nat.add_assoc]
    exact (settles_trySequence_cons hmatches hend).andElse
  obtain ⟨rounds, rfl⟩ := Nat.exists_eq_add_one_of_ne_zero (Nat.ne_zero_of_lt hrounds)
  rw [unmemoised_whole]
  exact hchoice.andElse.trans fun x => .refl _

theorem StandsWhole.exists_expr {first : List Token} {eof : Token} {step : Step Value}
    (h : StandsWhole (first ++ [eof]) step) (hfirst : ∀ t ∈ first, t.kind ≠ .eof) :
    ∃ e x, Yields .sum e first ∧ e.value? = some x ∧ step.value = .number x := by
  -- Only the last token is an end, so nothing is left out before it.
  obtain ⟨e, x, ts, t, hyields, hvalue, hstep, hkind, hsplit⟩ := h
  rcases List.append_eq_append_iff.1 hsplit with ⟨more, rfl, hmore⟩ | ⟨_ | ⟨u, more⟩, rfl, hmore⟩
  · cases more with
    | nil => exact ⟨e, x, by rwa [List.append_nil] at hyields, hvalue, hstep⟩
    | cons u more => simp at hmore
  · exact ⟨e, x, by rwa [List.append_nil], hvalue, hstep⟩
  · obtain ⟨rfl, -⟩ := List.cons.inj hmore
    exact absurd hkind (hfirst t (by simp))

section Run

variable (hlexer : Lexer.ofConfig { newlines := .ignore } = .ok lexer)

include hlexer

theorem unmemoised_eq_run {rounds : Nat} (hrounds : (problem tokens).depth ≤ rounds) :
    (problem tokens).unmemoised rounds compiled.start 0 0 =
      some ((problem tokens).run.1, (problem tokens).run.2.furthest) :=
  unmemoised_eq (p := problem tokens)
    (Grammar.compilesTo_of_compile (compile_eq_compiled hlexer)) acyclic_grammar hrounds

theorem run_holds (hfits : ∀ t ∈ tokens, t.Fits) :
    (problem tokens).run.1.Holds (StandsWhole tokens) False Refuses :=
  ensures_whole hfits _ _ _ _ (unmemoised_eq_run hlexer (Nat.le_succ _))

theorem run_of_yields {first : List Token} {eof : Token} {e : Expr}
    (hfits : ∀ t ∈ first ++ [eof], t.Fits) (heof : eof.kind = .eof) (h : Yields .sum e first) :
    match e.value? with
    | some x => (problem (first ++ [eof])).run.1 = .found (covering 0 (first ++ [eof]) x)
    | none => ∃ error, DividesByZero error ∧
      (problem (first ++ [eof])).run.1 = .broken error := by
  have hrounds : ∃ rounds, 4 * first.length + 4 < rounds ∧
      (problem (first ++ [eof])).depth ≤ rounds + 1 :=
    ⟨4 * first.length + 5 + (problem (first ++ [eof])).depth, by omega, by omega⟩
  obtain ⟨rounds, hlength, hdepth⟩ := hrounds
  have hrun := unmemoised_eq_run hlexer hdepth
  have hsettles := settles_whole rfl hfits heof h hlength
  cases hvalue : e.value? with
  | some x =>
    rw [hvalue] at hsettles
    obtain ⟨furthest, heq⟩ := hsettles 0
    exact congrArg Prod.fst (Option.some.inj (hrun.symm.trans heq))
  | none =>
    rw [hvalue] at hsettles
    obtain ⟨error, herror, hleads⟩ := hsettles
    obtain ⟨furthest, heq⟩ := hleads 0
    exact ⟨error, herror, congrArg Prod.fst (Option.some.inj (hrun.symm.trans heq))⟩

end Run

theorem exists_lexer (hp : parser = .ok p) :
    ∃ lexer, Lexer.ofConfig { newlines := .ignore } = .ok lexer ∧ p = ⟨lexer, compiled⟩ := by
  obtain ⟨lexer, hlexer, hp⟩ := bind_eq_ok.1 hp
  obtain ⟨c, hc, hp⟩ := bind_eq_ok.1 hp
  cases (compile_eq_compiled hlexer).symm.trans hc
  cases hp
  exact ⟨lexer, hlexer, rfl⟩

section Text

variable (hp : parser = .ok p) (htokens : p.tokens ⟨"<expression>", expression⟩ = .ok tokens)

include hp htokens

theorem exists_first : ∃ first eof, tokens = first ++ [eof] ∧ eof.kind = .eof ∧
    (∀ t ∈ first, t.kind ≠ .eof) ∧ ∀ t ∈ tokens, t.Fits := by
  obtain ⟨lexer, hlexer, rfl⟩ := exists_lexer hp
  have hlist : lexer.list "<expression>" expression = .ok tokens := by
    unfold Parser.tokens at htokens
    split at htokens
    · cases htokens
      assumption
    · cases htokens
  have hlists := Lexer.lists_of_list hlist
  have hmarks := (Lexer.serves_of_ofConfig hlexer).marks nofun
  have hfits := hlists.fits hlexer rfl
  have hne := hlists.kind_ne_eof hlexer rfl
  obtain ⟨first, line, rfl, -⟩ := hlists.exists_eof hmarks (Place.at_start _ _)
  rw [List.dropLast_concat] at hne
  exact ⟨first, _, rfl, rfl, hne, hfits⟩

omit htokens in
theorem evaluate_eq : evaluate expression =
    (p.parseValue ⟨"<expression>", expression⟩).map fun v => v.number?.getD (0.0 / 0.0) := by
  rw [evaluate, hp]
  rfl

theorem evaluate_of_yields {e : Expr} (h : Yields .sum e tokens.dropLast) :
    match e.value? with
    | some x => evaluate expression = .ok x
    | none => ∃ error, evaluate expression = .error error ∧ DividesByZero error := by
  obtain ⟨first, eof, rfl, heof, -, hfits⟩ := exists_first hp htokens
  obtain ⟨lexer, hlexer, rfl⟩ := exists_lexer hp
  rw [List.dropLast_concat] at h
  have hrun := run_of_yields hlexer hfits heof h
  rw [evaluate_eq hp]
  cases hvalue : e.value? with
  | some x =>
    rw [hvalue] at hrun
    rw [Parser.parseValue_of_found htokens hrun]
    rfl
  | none =>
    rw [hvalue] at hrun
    obtain ⟨error, herror, hrun⟩ := hrun
    rw [Parser.parseValue_of_broken htokens hrun]
    exact ⟨_, rfl, herror⟩

theorem evaluate_cases :
    (∃ e x, Yields .sum e tokens.dropLast ∧ e.value? = some x ∧ evaluate expression = .ok x ∧
      p.parseValue ⟨"<expression>", expression⟩ = .ok (.number x)) ∨
    ∃ error, Refuses error ∧ evaluate expression = .error error ∧
      p.parseValue ⟨"<expression>", expression⟩ = .error error := by
  obtain ⟨first, eof, rfl, heof, hfirst, hfits⟩ := exists_first hp htokens
  obtain ⟨lexer, hlexer, rfl⟩ := exists_lexer hp
  rw [List.dropLast_concat, evaluate_eq hp]
  have hholds := run_holds hlexer hfits
  rcases hrun : (problem (first ++ [eof])).run.1 with step | _ | error
  · rw [hrun] at hholds
    obtain ⟨e, x, hyields, hvalue, hstep⟩ := StandsWhole.exists_expr hholds hfirst
    rw [Parser.parseValue_of_found htokens hrun, hstep]
    exact .inl ⟨e, x, hyields, hvalue, rfl, rfl⟩
  · rw [hrun] at hholds
    exact hholds.elim
  · rw [hrun] at hholds
    rw [Parser.parseValue_of_broken htokens hrun]
    exact .inr ⟨error.withSource _, hholds, rfl, rfl⟩

/-- The calculator does conventional arithmetic. A text comes to a number exactly if its tokens stand
for an expression in which nothing is divided by zero, and the number is the value of the expression.
If something is divided by zero, then this is the error. Other texts are refused. No other errors
come up, and the value of a match is always a number. -/
theorem evaluate_spec :
    (∀ x, evaluate expression = .ok x ↔
      ∃ e, Yields .sum e tokens.dropLast ∧ e.value? = some x) ∧
    (∀ e, Yields .sum e tokens.dropLast → e.value? = none →
      ∃ error, evaluate expression = .error error ∧ DividesByZero error) ∧
    ((∀ e, ¬Yields .sum e tokens.dropLast) →
      ∃ error, evaluate expression = .error error ∧ Refuses error) ∧
    (∀ error, evaluate expression = .error error → Refuses error) ∧
    ∀ v, p.parseValue ⟨"<expression>", expression⟩ = .ok v → ∃ x, v = .number x := by
  have hyields {e : Expr} (h : Yields .sum e tokens.dropLast) := evaluate_of_yields hp htokens h
  have hcases := evaluate_cases hp htokens
  refine ⟨fun x => ⟨fun h => ?_, fun ⟨e, he, hvalue⟩ => ?_⟩, fun e he hvalue => ?_, fun hnone => ?_,
    fun error h => ?_, fun v hv => ?_⟩
  · obtain ⟨e, y, he, hvalue, heq, -⟩ | ⟨error, -, heq, -⟩ := hcases
    · cases h.symm.trans heq
      exact ⟨e, he, hvalue⟩
    · cases h.symm.trans heq
  · simpa only [hvalue] using hyields he
  · simpa only [hvalue] using hyields he
  · obtain ⟨e, y, he, -⟩ | ⟨error, hrefuses, heq, -⟩ := hcases
    · exact absurd he (hnone e)
    · exact ⟨error, heq, hrefuses⟩
  · obtain ⟨e, y, -, -, heq, -⟩ | ⟨error', hrefuses, heq, -⟩ := hcases
    · cases h.symm.trans heq
    · cases h.symm.trans heq
      exact hrefuses
  · obtain ⟨e, y, -, -, -, heq⟩ | ⟨error, -, -, heq⟩ := hcases
    · exact ⟨y, Except.ok.inj (hv.symm.trans heq)⟩
    · cases hv.symm.trans heq

end Text

theorem evaluate_spec_difference :
    ∃ p tokens x y z, parser = .ok p ∧ p.tokens ⟨"<expression>", "9 - 3 - 2"⟩ = .ok tokens ∧
      tokens.filterMap (·.payload) = [.number x, .number y, .number z] ∧
      evaluate "9 - 3 - 2" = .ok (x - y - z) := by
  obtain ⟨lexer, hlexer⟩ :=
    (Lexer.exists_ofConfig_iff (c := { newlines := .ignore }) rfl).2 (by decide)
  obtain ⟨p, hp, hown⟩ : ∃ p, parser = .ok p ∧ p.lexer = lexer :=
    ⟨⟨lexer, compiled⟩, bind_eq_ok.2
      ⟨lexer, hlexer, bind_eq_ok.2 ⟨compiled, compile_eq_compiled hlexer, rfl⟩⟩, rfl⟩
  obtain ⟨tokens, htokens, hkinds⟩ :
      ∃ tokens, p.tokens ⟨"<expression>", "9 - 3 - 2"⟩ = .ok tokens ∧ tokens.map (·.kind) =
        [.number, .literal "-", .number, .literal "-", .number, .eof] := by
    rw [Parser.tokens, hown, Lexer.list_eq_scanFrom hlexer rfl]
    decide +kernel
  obtain ⟨-, -, -, -, -, hfits⟩ := exists_first hp htokens
  simp only [List.map_eq_cons_iff, List.map_eq_nil_iff] at hkinds
  obtain ⟨a, -, rfl, ha, s, -, rfl, hs, b, -, rfl, hb, t, -, rfl, ht, c, -, rfl, hc, eof, -, rfl,
    heof, rfl⟩ := hkinds
  simp only [List.forall_mem_cons, Token.Fits, ha, hs, hb, ht, hc, heof] at hfits
  obtain ⟨⟨x, hx⟩, hs', ⟨y, hy⟩, ht', ⟨z, hz⟩, heof', -⟩ := hfits
  have hfirst : Yields .sum (.number x) [a] := .loosen (.loosen (.loosen (.number ha hx)))
  have hsecond : Yields .sum (.binary .sub (.number x) (.number y)) [a, s, b] :=
    @Yields.binary .sub s _ _ [a] [b] hfirst hs (.loosen (.loosen (.number hb hy)))
  have hthird : Yields .sum (.binary .sub (.binary .sub (.number x) (.number y)) (.number z))
      [a, s, b, t, c] :=
    @Yields.binary .sub t _ _ [a, s, b] [c] hsecond ht (.loosen (.loosen (.number hc hz)))
  refine ⟨p, _, x, y, z, hp, htokens, by simp [hx, hs', hy, ht', hz, heof'], ?_⟩
  exact ((evaluate_spec hp htokens).1 _).2 ⟨_, hthird, rfl⟩

end Calc

end Packrat
