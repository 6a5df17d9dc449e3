import Packrat.Proofs.Lexer.Dispatch

namespace Packrat.Lexer

open Pattern

/-- The lexer has the specs and the settings of the configuration. Its pattern and its groups may be
any, so this says nothing of how the text of a spec is read. -/
structure Serves (lexer : Lexer) (c : Config) : Prop where
  specs : lexer.specs = Spec.all c
  keywords : lexer.keywords = c.keywords
  kinds : lexer.kinds = Kind.sorted
    (Kind.categories ++ c.custom.flatMap (·.kinds) ++ c.literals.map Kind.literal)
  newlines : lexer.newlines = c.newlines

variable {c : Config} {lexer : Lexer}

theorem serves_of_ofConfig (h : ofConfig c = .ok lexer) : lexer.Serves c := by
  obtain ⟨_, -, h⟩ := bind_eq_ok.1 h
  obtain ⟨_, -, h⟩ := bind_eq_ok.1 h
  obtain ⟨alone, -, h⟩ := bind_eq_ok.1 h
  obtain ⟨pattern, -, h⟩ := bind_eq_ok.1 h
  cases h
  exact ⟨rfl, rfl, rfl, rfl⟩

theorem checkLiteral_of_ofConfig (h : ofConfig c = .ok lexer) :
    (∀ l ∈ c.keywords, checkLiteral "keyword" l = .ok ()) ∧
      ∀ l ∈ c.symbols, checkLiteral "symbol" l = .ok () := by
  obtain ⟨_, hkeywords, h⟩ := bind_eq_ok.1 h
  obtain ⟨_, hsymbols, -⟩ := bind_eq_ok.1 h
  exact ⟨forM_eq_ok_iff.1 hkeywords, forM_eq_ok_iff.1 hsymbols⟩

theorem exists_checkLiteral_of_ofConfig (h : ofConfig c = .ok lexer) {l : String}
    (hl : l ∈ c.literals) : ∃ what, checkLiteral what l = .ok () := by
  obtain ⟨hkeywords, hsymbols⟩ := checkLiteral_of_ofConfig h
  exact (List.mem_append.1 hl).elim (fun hl => ⟨_, hkeywords l hl⟩) fun hl => ⟨_, hsymbols l hl⟩

theorem ne_empty_of_ofConfig (h : ofConfig c = .ok lexer) : ∀ l ∈ c.literals, l ≠ "" := by
  rintro l hl rfl
  obtain ⟨what, hcheck⟩ := exists_checkLiteral_of_ofConfig h hl
  cases hcheck

theorem not_isBlank_of_ofConfig (h : ofConfig c = .ok lexer) {l : String} (hl : l ∈ c.literals)
    {d : Char} (hd : d ∈ l.toList) : Text.isBlank d = false := by
  obtain ⟨what, hcheck⟩ := exists_checkLiteral_of_ofConfig h hl
  rw [checkLiteral] at hcheck
  split at hcheck
  · cases hcheck
  · split at hcheck
    · cases hcheck
    · split at hcheck
      · cases hcheck
      · next hblanks =>
        rw [Bool.not_eq_true, List.any_eq_false] at hblanks
        simpa using hblanks d hd

/-- Without specs of one's own the patterns are always read, so only keywords and symbols can be
refused. -/
theorem exists_ofConfig_iff (hcustom : c.custom = []) :
    (∃ lexer, ofConfig c = .ok lexer) ↔
      (∀ l ∈ c.keywords, checkLiteral "keyword" l = .ok ()) ∧
        ∀ l ∈ c.symbols, checkLiteral "symbol" l = .ok () := by
  constructor
  · rintro ⟨lexer, h⟩
    exact checkLiteral_of_ofConfig h
  · rintro ⟨hkeywords, hsymbols⟩
    have hplain : ∀ s ∈ Spec.all c, s.Plain := by
      rw [Spec.all_eq, hcustom]
      exact fun s hs => Spec.plain_builtin hs
    obtain ⟨alone, halone⟩ :
        ∃ alone, (Spec.all c).mapM (fun s => readPattern s.pattern) = .ok alone := by
      refine exists_mapM_eq_ok_iff.2 fun s hs => ?_
      obtain ⟨p, hp, -⟩ := (hplain s hs).denotes
      exact ⟨p, readPattern_eq_ok_iff.2 hp⟩
    obtain ⟨pattern, hpattern⟩ : ∃ p, read (alternation (Spec.all c)).toList = .ok p := by
      rw [toList_alternation]
      refine exists_read_glue (List.forall_mem_map.2 fun s hs => (hplain s hs).embeds) ?_
      simp [Spec.all]
    exact ⟨_, bind_eq_ok.2 ⟨(), forM_eq_ok_iff.2 hkeywords, bind_eq_ok.2 ⟨(), forM_eq_ok_iff.2 hsymbols,
      bind_eq_ok.2 ⟨alone, halone, bind_eq_ok.2 ⟨pattern, readPattern_eq_ok_iff.2 hpattern, rfl⟩⟩⟩⟩⟩

theorem exists_ofConfig_bare : ∃ lexer, ofConfig .bare = .ok lexer :=
  (exists_ofConfig_iff rfl).2 (by decide)

end Packrat.Lexer
