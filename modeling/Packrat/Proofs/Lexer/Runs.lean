import Packrat.Proofs.Lexer.Strings
import Packrat.Proofs.Pattern.Forward

namespace Packrat

open Text (Cursor byteSize)

namespace Text.Cursor

theorem lt_offset_pass (p : Cursor) {text : List Char} (hne : text ≠ []) (rest : List Char) :
    p.offset < (p.pass text rest).offset := by
  cases text with
  | nil => exact absurd rfl hne
  | cons c text =>
    have := c.utf8Size_pos
    rw [offset_pass, byteSize]
    omega

end Text.Cursor

namespace Place

structure Behind (next place : Place) (text : List Char) : Prop where
  ne_nil : text ≠ []
  after : place.cursor.after = text ++ next.cursor.after
  eq : next = place.advance text (place.cursor.pass text next.cursor.after)

variable {place next : Place} {text : List Char}

theorem Behind.cursor (h : next.Behind place text) :
    next.cursor = place.cursor.pass text next.cursor.after := congrArg Place.cursor h.eq

theorem Behind.source (h : next.Behind place text) : next.source = place.source := by
  rw [h.eq]
  rfl

theorem Behind.offset (h : next.Behind place text) :
    next.cursor.offset = place.cursor.offset + byteSize text := by
  rw [h.eq]
  rfl

theorem Behind.lt (h : next.Behind place text) : place.cursor.offset < next.cursor.offset := by
  rw [h.eq]
  exact place.cursor.lt_offset_pass h.ne_nil _

theorem Behind.length_lt (h : next.Behind place text) :
    next.cursor.after.length < place.cursor.after.length := by
  have := List.length_pos_iff.2 h.ne_nil
  rw [h.after, List.length_append]
  omega

end Place

namespace Lexer

open Pattern

variable {lexer : Lexer} {place next : Place} {tokens : List Token}

theorem stepTo_pass {i : Nat} {s : Spec} {text rest : List Char}
    (hs : lexer.specs[i]? = some s) (hafter : place.cursor.after = text ++ rest) :
    lexer.stepTo place (some (i, place.cursor.pass text rest)) =
      ((lexer.perform s.action text (place.marker (place.cursor.offset + byteSize text))).map
        (·.filter lexer.keeps)).map
          fun tokens => (tokens, place.advance text (place.cursor.pass text rest)) := by
  rw [stepTo]
  simp only [Option.bind_some, hs, Option.map_some, Place.textTo_pass hafter, Cursor.offset_pass]
  cases lexer.perform s.action text _ <;> rfl

def listFrom (lexer : Lexer) (fuel : Nat) (place : Place) : Except Error (List Token) :=
  match lexer.tokensFrom fuel place with
  | (tokens, .ok eof) => pure (tokens ++ [eof])
  | (_, .error e) => throw e

theorem listFrom_atEnd (h : place.cursor.after = []) (fuel : Nat) :
    lexer.listFrom fuel place = .ok [place.eof] := by
  cases fuel with
  | zero => rfl
  | succ fuel =>
    rw [listFrom, tokensFrom, Cursor.atEnd, h]
    rfl

theorem listFrom_cons {ch : Char} {cs : List Char}
    (h : place.cursor.after = ch :: cs) (fuel : Nat) :
    lexer.listFrom (fuel + 1) place =
      lexer.step place >>= fun x => (lexer.listFrom fuel x.2).map fun more => x.1 ++ more := by
  rw [listFrom, tokensFrom, Cursor.atEnd, h]
  cases lexer.step place with
  | error e => rfl
  | ok x =>
    change _ = (lexer.listFrom fuel x.2).map fun more => x.1 ++ more
    dsimp only [listFrom, List.isEmpty_cons, Bool.false_eq_true, if_false]
    rcases lexer.tokensFrom fuel x.2 with ⟨more, last⟩
    cases last with
    | error e => rfl
    | ok eof => exact congrArg Except.ok (List.append_assoc _ _ _)

theorem ahead_of_branch? {p q : Cursor} {i : Nat} (h : lexer.branch? p = some (i, q)) :
    Ahead p q ∧ p.offset < q.offset := by
  rw [branch?] at h
  cases hmatch : lexer.pattern.matchAt? p with
  | none =>
    rw [hmatch] at h
    cases h
  | some r =>
    rw [hmatch] at h
    dsimp only at h
    split at h
    · split at h
      · next hlt =>
        cases h
        exact ⟨ahead_of_matchAt? hmatch, hlt⟩
      · cases h
    · cases h

theorem step_of_branch? {i : Nat} {s : Spec} {q : Cursor}
    (hbranch : lexer.branch? place.cursor = some (i, q)) (hs : lexer.specs[i]? = some s) :
    ∃ text next, next.Behind place text ∧ next.cursor = q ∧
      lexer.step place = ((lexer.perform s.action text (place.marker next.cursor.offset)).map
        (·.filter lexer.keeps)).map fun tokens => (tokens, next) := by
  obtain ⟨⟨text, rest, hafter, rfl⟩, hlt⟩ := ahead_of_branch? hbranch
  have hne : text ≠ [] := by
    rintro rfl
    exact Nat.lt_irrefl _ hlt
  refine ⟨text, place.advance text (place.cursor.pass text rest), ⟨hne, hafter, rfl⟩, rfl, ?_⟩
  rw [step, hbranch]
  exact stepTo_pass hs hafter

theorem step_cases (lexer : Lexer) (place : Place) :
    (∃ rest, lexer.step place =
        .error { cause := .stalled rest, marker := some place.eof.marker }) ∨
      ∃ i s text next, lexer.branch? place.cursor = some (i, next.cursor) ∧
        lexer.specs[i]? = some s ∧ next.Behind place text ∧
        lexer.step place = ((lexer.perform s.action text (place.marker next.cursor.offset)).map
          (·.filter lexer.keeps)).map fun tokens => (tokens, next) := by
  rcases hbranch : lexer.branch? place.cursor with _ | ⟨i, q⟩
  · rw [step, hbranch]
    exact .inl ⟨_, rfl⟩
  · cases hs : lexer.specs[i]? with
    | none =>
      rw [step, hbranch, stepTo, Option.bind_some]
      dsimp only
      rw [hs]
      exact .inl ⟨_, rfl⟩
    | some s =>
      obtain ⟨text, next, hnext, rfl, hstep⟩ := step_of_branch? hbranch hs
      exact .inr ⟨i, s, text, next, rfl, hs, hnext, hstep⟩

def Takes (lexer : Lexer) (place next : Place) (given : List Token) : Prop :=
  ∃ i s text, lexer.branch? place.cursor = some (i, next.cursor) ∧ lexer.specs[i]? = some s ∧
    next.Behind place text ∧
    lexer.perform s.action text (place.marker next.cursor.offset) = .ok given

theorem step_eq_ok_iff : lexer.step place = .ok (tokens, next) ↔
    ∃ given, lexer.Takes place next given ∧ tokens = given.filter lexer.keeps := by
  constructor
  · intro h
    rcases lexer.step_cases place with ⟨rest, hstep⟩ | ⟨i, s, text, reached, hbranch, hs, hreached, hstep⟩
    · cases hstep.symm.trans h
    · rw [hstep, map_eq_ok] at h
      obtain ⟨_, hkept, h⟩ := h
      obtain ⟨given, hperform, rfl⟩ := map_eq_ok.1 hkept
      cases h
      exact ⟨given, ⟨i, s, text, hbranch, hs, hreached, hperform⟩, rfl⟩
  · rintro ⟨given, ⟨i, s, text, hbranch, hs, hnext, hperform⟩, rfl⟩
    have hstep := stepTo_pass hs hnext.after
    rw [← hnext.eq, ← hnext.cursor, ← hnext.offset, hperform] at hstep
    rw [step, hbranch, hstep]
    rfl

theorem exists_behind_of_step (h : lexer.step place = .ok (tokens, next)) :
    ∃ s ∈ lexer.specs, ∃ text raw, next.Behind place text ∧
      lexer.perform s.action text (place.marker next.cursor.offset) = .ok raw ∧
      tokens = raw.filter lexer.keeps := by
  obtain ⟨raw, ⟨i, s, text, -, hs, hnext, hperform⟩, htokens⟩ := step_eq_ok_iff.1 h
  exact ⟨s, List.mem_of_getElem? hs, text, raw, hnext, hperform, htokens⟩

/-- The tokens that a lexer gives from a place on, step by step. -/
inductive Lists (lexer : Lexer) : Place → List Token → Prop
  | eof {place : Place} (hafter : place.cursor.after = []) : Lists lexer place [place.eof]
  | step {place next : Place} {tokens more : List Token} (hafter : place.cursor.after ≠ [])
      (hstep : lexer.step place = .ok (tokens, next)) (hmore : Lists lexer next more) :
      Lists lexer place (tokens ++ more)

theorem lists_of_listFrom {fuel : Nat} (hfuel : place.cursor.after.length ≤ fuel)
    (h : lexer.listFrom fuel place = .ok tokens) : lexer.Lists place tokens := by
  induction fuel generalizing place tokens with
  | zero =>
    have hafter := List.length_eq_zero_iff.1 (Nat.le_zero.1 hfuel)
    rw [listFrom_atEnd hafter] at h
    cases h
    exact .eof hafter
  | succ fuel ih =>
    cases hafter : place.cursor.after with
    | nil =>
      rw [listFrom_atEnd hafter] at h
      cases h
      exact .eof hafter
    | cons ch cs =>
      rw [listFrom_cons hafter, bind_eq_ok] at h
      obtain ⟨⟨first, next⟩, hstep, h⟩ := h
      cases hmore : lexer.listFrom fuel next with
      | error e =>
        rw [hmore] at h
        cases h
      | ok more =>
        rw [hmore] at h
        cases h
        obtain ⟨-, -, text, raw, hbehind, -⟩ := exists_behind_of_step hstep
        have hlt := hbehind.length_lt
        exact .step (by simp [hafter]) hstep (ih (by omega) hmore)

theorem lists_of_list {source text : String} (h : lexer.list source text = .ok tokens) :
    lexer.Lists (.start source text) tokens := lists_of_listFrom (Nat.le_refl _) h

end Lexer

end Packrat
