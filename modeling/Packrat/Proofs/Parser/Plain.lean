import Packrat.Proofs.Grammar.Valid
import Packrat.Proofs.Parser.Memo
import Packrat.Proofs.Parser.Mirror

namespace Packrat.Parser

variable {V α : Type}

def errorOf? : Except Error α → Option Error
  | .ok _ => none
  | .error e => some e

def failureOf? : Except Error (Outcome V) → Option Token
  | .ok (.failed t) => some t
  | _ => none

theorem eq_of_errorOf? {result : Except Error α} {e : Error} (h : errorOf? result = some e) :
    result = .error e := by
  unfold errorOf? at h
  split at h <;> cases h
  rfl

theorem eq_of_failureOf? {result : Except Error (Outcome V)} {t : Token}
    (h : failureOf? result = some t) : result = .ok (.failed t) := by
  unfold failureOf? at h
  split at h <;> cases h
  rfl

variable [OfToken V]

/-- The outcome for a source by matching without memory. It is `none` if matching does not end
within the rounds that the run of the matcher has. -/
def plain (p : Parser V) (source : Source) : Option (Except Error (Outcome V)) :=
  match p.tokens source with
  | .error e => some (throw e)
  | .ok tokens =>
    let problem : Problem V := ⟨p.grammar, tokens.toArray⟩
    (problem.unmemoised problem.depth problem.grammar.start 0 0).map fun (answer, furthest) =>
      problem.outcome source (answer, ⟨{}, furthest, []⟩)

variable {g : Grammar V} {lexer : Lexer} {p : Parser V} {source : Source}

theorem plain_eq_parse (hp : ofGrammar g lexer = .ok p) (hg : g.Acyclic) (source : Source) :
    p.plain source = some (p.parse source) := by
  obtain ⟨c, hc, rfl⟩ := ofGrammar_eq_ok_iff.1 hp
  unfold plain
  cases htokens : (Parser.mk lexer c).tokens source with
  | error e =>
    rw [parse_eq_error htokens]
    rfl
  | ok tokens =>
    have hrun := Problem.unmemoised_eq (p := ⟨c, tokens.toArray⟩) (Grammar.compilesTo_of_compile hc)
      hg (Nat.le_refl _)
    rw [parse_eq_outcome htokens]
    dsimp only
    rw [hrun, Option.map_some]
    rcases (Problem.mk c tokens.toArray).run with ⟨_ | _ | e, st⟩ <;> rfl

theorem error_of_plain (hp : ofGrammar g lexer = .ok p) (hg : g.Acyclic) {f : Error → α} {a : α}
    (h : ((p.plain source).bind errorOf?).map f = some a) :
    ∃ e, p.parse source = .error e ∧ f e = a := by
  rw [plain_eq_parse hp hg, Option.bind_some] at h
  obtain ⟨e, he, hf⟩ := Option.map_eq_some_iff.1 h
  exact ⟨e, eq_of_errorOf? he, hf⟩

theorem failed_of_plain (hp : ofGrammar g lexer = .ok p) (hg : g.Acyclic) {f : Token → α} {a : α}
    (h : ((p.plain source).bind failureOf?).map f = some a) :
    ∃ t, p.parse source = .ok (.failed t) ∧ f t = a := by
  rw [plain_eq_parse hp hg, Option.bind_some] at h
  obtain ⟨t, ht, hf⟩ := Option.map_eq_some_iff.1 h
  exact ⟨t, eq_of_failureOf? ht, hf⟩

end Packrat.Parser
