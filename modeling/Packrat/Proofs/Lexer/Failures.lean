import Packrat.Proofs.Lexer.Positions

namespace Packrat

/-- Errors of the action are about its lexeme, or about no place. -/
def CustomSpec.Blames (s : CustomSpec) : Prop :=
  ∀ l e, s.action l = .error e → e.marker = none ∨ e.marker = some l.marker

namespace Lexer

variable {c : Config} {lexer : Lexer} {place next : Place} {tokens : List Token} {e : Error}

theorem error_of_perform {action : Action} {text : List Char} {marker : Marker}
    (h : lexer.perform action text marker = .error e) :
    (e.cause.category = .lex ∧ e.marker = some marker ∧ e.source = none) ∨
      ∃ f, action = .custom f ∧ f ⟨String.ofList text, marker⟩ = .error e := by
  cases action with
  | skip | newline | literal => cases h
  | identifier =>
    rw [perform] at h
    split at h <;> cases h
  | hexNumber | decimal | quotedString =>
    rw [perform] at h
    split at h
    · cases h
    · cases h
      exact .inl ⟨rfl, rfl, rfl⟩
  | reject =>
    cases h
    exact .inl ⟨rfl, rfl, rfl⟩
  | custom f => exact .inr ⟨f, rfl, h⟩

theorem error_of_step (h : lexer.step place = .error e) :
    (e.cause.category = .lex ∧ e.marker = some place.eof.marker ∧ e.source = none) ∨
      ∃ s ∈ lexer.specs, ∃ (taken : List Char) (next : Place), next.Behind place taken ∧
        lexer.perform s.action taken (place.marker next.cursor.offset) = .error e := by
  rcases lexer.step_cases place with ⟨rest, hstep⟩ | ⟨i, s, taken, next, -, hs, hnext, hstep⟩
  · cases hstep.symm.trans h
    exact .inl ⟨rfl, rfl, rfl⟩
  · rw [hstep, map_eq_error, map_eq_error] at h
    exact .inr ⟨s, List.mem_of_getElem? hs, taken, next, hnext, h⟩

theorem exists_place_of_listFrom {fuel : Nat} {text : List Char} (hplace : place.At text)
    (h : lexer.listFrom fuel place = .error e) :
    ∃ reached : Place, reached.At text ∧ reached.source = place.source ∧
      lexer.step reached = .error e := by
  induction fuel generalizing place with
  | zero => cases h
  | succ fuel ih =>
    cases hafter : place.cursor.after with
    | nil =>
      rw [listFrom_atEnd hafter] at h
      cases h
    | cons ch cs =>
      rw [listFrom_cons hafter, bind_eq_error] at h
      rcases h with hstep | ⟨⟨first, next⟩, hstep, hmore⟩
      · exact ⟨place, hplace, rfl, hstep⟩
      · obtain ⟨-, -, taken, -, hnext, -⟩ := exists_behind_of_step hstep
        rw [← hnext.source]
        exact ih (hplace.behind hnext) (map_eq_error.1 hmore)

theorem Serves.exists_custom (h : lexer.Serves c) {s : Spec} (hs : s ∈ lexer.specs)
    {f : Lexeme → Except Error (List Token)} (haction : s.action = .custom f) :
    ∃ own ∈ c.custom, own.action = f := by
  rw [h.specs, Spec.all_eq, List.mem_append, List.mem_map] at hs
  rcases hs with ⟨own, hown, rfl⟩ | hs
  · exact ⟨own, hown, by cases haction; rfl⟩
  · exact absurd haction (action_ne_custom hs f)

theorem category_of_list (h : lexer.Serves c) {source text : String}
    (hlist : lexer.list source text = .error e) :
    e.cause.category = .lex ∨ ∃ s ∈ c.custom, ∃ l, s.action l = .error e := by
  obtain ⟨reached, -, -, hstep⟩ := exists_place_of_listFrom (Place.at_start source text) hlist
  rcases error_of_step hstep with ⟨hlex, -⟩ | ⟨s, hs, taken, next, -, hperform⟩
  · exact .inl hlex
  · rcases error_of_perform hperform with ⟨hlex, -⟩ | ⟨f, haction, hf⟩
    · exact .inl hlex
    · obtain ⟨own, hown, rfl⟩ := h.exists_custom hs haction
      exact .inr ⟨own, hown, _, hf⟩

theorem error_of_list (h : lexer.Serves c) (hblames : ∀ s ∈ c.custom, s.Blames)
    {source text : String} (hlist : lexer.list source text = .error e) :
    (∀ m, e.marker = some m → m.Spans source text.toList) ∧
      (e.source = none ∨ ∃ s ∈ c.custom, ∃ l, s.action l = .error e) := by
  obtain ⟨reached, hplace, hsource, hstep⟩ :=
    exists_place_of_listFrom (Place.at_start source text) hlist
  have hsource : reached.source = source := hsource
  rw [← hsource]
  rcases error_of_step hstep with ⟨-, hmarker, hnone⟩ | ⟨s, hs, taken, next, hnext, hperform⟩
  · refine ⟨fun m hm => ?_, .inl hnone⟩
    cases hmarker.symm.trans hm
    exact hplace.spans_eof
  · rcases error_of_perform hperform with ⟨-, hmarker, hnone⟩ | ⟨f, haction, hf⟩
    · refine ⟨fun m hm => ?_, .inl hnone⟩
      cases hmarker.symm.trans hm
      exact hplace.spans hnext
    · obtain ⟨own, hown, rfl⟩ := h.exists_custom hs haction
      refine ⟨fun m hm => ?_, .inr ⟨own, hown, _, hf⟩⟩
      rcases hblames own hown _ _ hf with hmarker | hmarker
      · cases hmarker.symm.trans hm
      · cases hmarker.symm.trans hm
        exact hplace.spans hnext

end Lexer

end Packrat
