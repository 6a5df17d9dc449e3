import Packrat.Proofs.Lexer.Demand

namespace Packrat.Lexer

variable {c : Config} {lexer : Lexer} {place : Place} {given : List (List Token)}
  {last : Except Error Token}

def withNewlines (lexer : Lexer) (n : Newlines) : Lexer := { lexer with newlines := n }

theorem ofConfig_withNewlines (c : Config) (n : Newlines) :
    ofConfig { c with newlines := n } = (ofConfig c).map (·.withNewlines n) := by
  simp only [ofConfig]
  cases c.keywords.forM (checkLiteral "keyword") with
  | error e => rfl
  | ok _ =>
    cases c.symbols.forM (checkLiteral "symbol") with
    | error e => rfl
    | ok _ =>
      change ((Spec.all c).mapM (fun s => readPattern s.pattern) >>= fun alone => _) =
        Except.map _ ((Spec.all c).mapM (fun s => readPattern s.pattern) >>= fun alone => _)
      cases (Spec.all c).mapM fun s => readPattern s.pattern with
      | error e => rfl
      | ok alone =>
        change (readPattern (alternation (Spec.all c)) >>= fun pattern => _) =
          Except.map _ (readPattern (alternation (Spec.all c)) >>= fun pattern => _)
        cases readPattern (alternation (Spec.all c)) with
        | error e => rfl
        | ok pattern => rfl

theorem stepTo_withNewlines_eq_error {n : Newlines} {e : Error} {branch : Option (Nat × Text.Cursor)}
    (h : lexer.stepTo place branch = .error e) :
    (lexer.withNewlines n).stepTo place branch = .error e := by
  rw [stepTo] at h ⊢
  dsimp only [withNewlines]
  split at h
  · next hnone =>
    rw [hnone]
    exact h
  · next s q hsome =>
    rw [hsome]
    rcases bind_eq_error.1 h with h | ⟨tokens, -, h⟩
    · exact bind_eq_error.2 (.inl h)
    · cases h

theorem Runs.withNewlines (h : lexer.Runs place given last) (n : Newlines) :
    (lexer.withNewlines n).Runs place given last := by
  -- A run records what actions give, so it is a run whatever is ignored.
  induction h with
  | eof hafter => exact .eof hafter
  | error hafter hstep => exact .error hafter (stepTo_withNewlines_eq_error hstep)
  | step hafter hfirst hmore ih => exact .step hafter hfirst ih

theorem kept_ignore (lexer : Lexer) (given : List (List Token)) :
    (lexer.withNewlines .ignore).kept given =
      ((lexer.withNewlines .keep).kept given).filter fun t => t.kind ≠ .newline := by
  have hkeep : (Newlines.keep == Newlines.ignore) = false := rfl
  rw [kept, kept, List.filter_filter]
  congr 1
  funext t
  simp [keeps, Lexer.withNewlines, hkeep, beq_eq_decide]

/-- Of two lexers that differ in nothing but the treatment of line breaks, one gives the tokens of the
other without the line breaks, or the same error. Two configurations that differ in nothing else make
two such lexers. -/
theorem list_ignore_eq_filter (lexer : Lexer) (source text : String) :
    (lexer.withNewlines .ignore).list source text =
      ((lexer.withNewlines .keep).list source text).map (fun tokens =>
        tokens.filter fun t => t.kind ≠ .newline) ∧
    ∀ c, ofConfig c = .ok lexer →
      ofConfig { c with newlines := .keep } = .ok (lexer.withNewlines .keep) ∧
        ofConfig { c with newlines := .ignore } = .ok (lexer.withNewlines .ignore) := by
  constructor
  · obtain ⟨given, last, hruns⟩ := lexer.exists_runs (.start source text)
    rw [(hruns.withNewlines .keep).list_eq, (hruns.withNewlines .ignore).list_eq, kept_ignore]
    rcases hruns.last_cases (Place.at_start source text) with rfl | ⟨reached, e, -, -, rfl⟩
    · simp only [Except.map, List.filter_append]
      rfl
    · rfl
  · intro c h
    have hmade (n : Newlines) : ofConfig { c with newlines := n } = .ok (lexer.withNewlines n) := by
      rw [ofConfig_withNewlines, h]
      rfl
    exact ⟨hmade .keep, hmade .ignore⟩

theorem list_ignore_eq_filter_mixed :
    ∃ keeping ignoring tokens,
      ofConfig { Config.bare with
        custom := [⟨"@", [], fun l => pure [l.token .newline none, l.token .name none]⟩] } =
          .ok keeping ∧
      ofConfig { Config.bare with
        newlines := .ignore
        custom := [⟨"@", [], fun l => pure [l.token .newline none, l.token .name none]⟩] } =
          .ok ignoring ∧
      keeping.list "" "@\n\nx\n" = .ok tokens ∧
      tokens.map (·.kind) = [.newline, .name, .newline, .name, .newline, .eof] ∧
      ignoring.list "" "@\n\nx\n" = .ok (tokens.filter fun t => t.kind ≠ .newline) := by
  obtain ⟨lexer, h, tokens, hlist, hkinds⟩ : ∃ lexer,
      ofConfig { Config.bare with
        custom := [⟨"@", [], fun l => pure [l.token .newline none, l.token .name none]⟩] } =
          .ok lexer ∧
      ∃ tokens, lexer.list "" "@\n\nx\n" = .ok tokens ∧
        tokens.map (·.kind) = [.newline, .name, .newline, .name, .newline, .eof] := by
    decide +kernel
  obtain ⟨hfilter, hmade⟩ := list_ignore_eq_filter lexer "" "@\n\nx\n"
  obtain ⟨hkeeping, hignoring⟩ := hmade _ h
  have hkeep : lexer.withNewlines .keep = lexer := Except.ok.inj (hkeeping.symm.trans h)
  rw [hkeep, hlist] at hfilter
  exact ⟨_, _, tokens, h, hignoring, hlist, hkinds, hfilter⟩

end Packrat.Lexer
