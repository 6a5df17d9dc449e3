import Packrat.Proofs.Lexer.Positions

namespace Packrat

open Text (Cursor)

namespace Lexer

variable {lexer : Lexer} {place next : Place} {given : List (List Token)} {tokens : List Token}
  {last : Except Error Token}

/-- A run from a place: what the action of each step gives, and how the run ends. -/
inductive Runs (lexer : Lexer) : Place → List (List Token) → Except Error Token → Prop
  | eof {place : Place} (hafter : place.cursor.after = []) : Runs lexer place [] (.ok place.eof)
  | error {place : Place} {e : Error} (hafter : place.cursor.after ≠ [])
      (hstep : lexer.step place = .error e) : Runs lexer place [] (.error e)
  | step {place next : Place} {first : List Token} {given : List (List Token)}
      {last : Except Error Token} (hafter : place.cursor.after ≠ [])
      (hfirst : lexer.Takes place next first) (hmore : Runs lexer next given last) :
      Runs lexer place (first :: given) last

def kept (lexer : Lexer) (given : List (List Token)) : List Token :=
  given.flatten.filter lexer.keeps

@[simp] theorem kept_nil : lexer.kept [] = [] := rfl

@[simp] theorem kept_cons (first : List Token) :
    lexer.kept (first :: given) = first.filter lexer.keeps ++ lexer.kept given := by
  rw [kept, List.flatten_cons, List.filter_append, kept]

theorem Takes.length_lt {first : List Token} (h : lexer.Takes place next first) :
    next.cursor.after.length < place.cursor.after.length := by
  obtain ⟨_, _, _, -, -, hnext, -⟩ := h
  exact hnext.length_lt

theorem exists_runs (lexer : Lexer) (place : Place) : ∃ given last, lexer.Runs place given last := by
  -- Each step leaves less of the text, so a run comes to its end.
  by_cases hafter : place.cursor.after = []
  · exact ⟨[], _, .eof hafter⟩
  · cases hstep : lexer.step place with
    | error e => exact ⟨[], _, .error hafter hstep⟩
    | ok x =>
      obtain ⟨first, hfirst, -⟩ := step_eq_ok_iff.1 hstep
      have := hfirst.length_lt
      obtain ⟨given, last, hmore⟩ := exists_runs lexer x.2
      exact ⟨first :: given, last, .step hafter hfirst hmore⟩
termination_by place.cursor.after.length

theorem tokensFrom_of_step (hafter : place.cursor.after ≠ [])
    (hstep : lexer.step place = .ok (tokens, next)) (fuel : Nat) :
    lexer.tokensFrom (fuel + 1) place =
      (tokens ++ (lexer.tokensFrom fuel next).1, (lexer.tokensFrom fuel next).2) := by
  rw [tokensFrom, Cursor.atEnd, if_neg (by simpa using hafter), hstep]

theorem Runs.tokensFrom_eq (h : lexer.Runs place given last) {fuel : Nat}
    (hfuel : place.cursor.after.length ≤ fuel) :
    lexer.tokensFrom fuel place = (lexer.kept given, last) := by
  -- As many steps are enough as characters are left.
  induction h generalizing fuel with
  | eof hafter => cases fuel <;> simp [tokensFrom, Cursor.atEnd, hafter, pure, Except.pure]
  | error hafter hstep =>
    obtain ⟨fuel, rfl⟩ := Nat.exists_eq_add_one_of_ne_zero fun hzero =>
      hafter (List.length_eq_zero_iff.1 (Nat.le_zero.1 (hzero ▸ hfuel)))
    rw [tokensFrom, Cursor.atEnd, if_neg (by simpa using hafter), hstep]
    rfl
  | step hafter hfirst hmore ih =>
    have := hfirst.length_lt
    obtain ⟨fuel, rfl⟩ : ∃ n, fuel = n + 1 := ⟨fuel - 1, by omega⟩
    rw [tokensFrom_of_step hafter (step_eq_ok_iff.2 ⟨_, hfirst, rfl⟩), ih (by omega), kept_cons]

theorem Runs.list_eq {source text : String} (h : lexer.Runs (.start source text) given last) :
    lexer.list source text = last.map fun eof => lexer.kept given ++ [eof] := by
  simp only [list, h.tokensFrom_eq (Nat.le_refl _)]
  cases last <;> rfl

theorem Runs.last_cases (h : lexer.Runs place given last) {text : List Char} (hplace : place.At text) :
    last = .ok ⟨.span place.source (Text.byteSize text) (Text.byteSize text)
        (1 + text.count '\n'), .eof, none⟩ ∨
      ∃ (reached : Place) (e : Error), reached.At text ∧ lexer.step reached = .error e ∧
        last = .error e := by
  induction h with
  | @eof place hafter =>
    have hline : place.line = 1 + text.count '\n' := by
      rw [hplace.line, hplace.text, hafter, List.append_nil]
    rw [← hline, ← hplace.offset_eq hafter]
    exact .inl rfl
  | @error place e hafter hstep => exact .inr ⟨place, e, hplace, hstep, rfl⟩
  | step hafter hfirst hmore ih =>
    obtain ⟨_, _, taken, -, -, hnext, -⟩ := hfirst
    rw [← hnext.source]
    exact ih (hplace.behind hnext)

theorem Runs.exists_step (h : lexer.Runs place given last) {t : Token} (ht : t ∈ lexer.kept given) :
    ∃ (reached next : Place) (tokens : List Token), reached.cursor.after ≠ [] ∧
      lexer.step reached = .ok (tokens, next) ∧ t ∈ tokens := by
  induction h with
  | eof hafter => cases ht
  | error hafter hstep => cases ht
  | @step place next first given last hafter hfirst hmore ih =>
    rw [kept_cons, List.mem_append] at ht
    rcases ht with ht | ht
    · exact ⟨place, next, _, hafter, step_eq_ok_iff.2 ⟨first, hfirst, rfl⟩, ht⟩
    · exact ih ht

end Lexer

namespace Scan

open Lexer

variable {lexer : Lexer} {s : Scan}

def after (lexer : Lexer) : Nat → Scan → Scan
  | 0, s => s
  | n + 1, s => after lexer n (next lexer s).2

def item (lexer : Lexer) (n : Nat) (s : Scan) : Option (Except Error Token) :=
  (next lexer (after lexer n s)).1

theorem item_succ (lexer : Lexer) (n : Nat) (s : Scan) :
    item lexer (n + 1) s = item lexer n (next lexer s).2 := rfl

theorem rest_pending {t : Token} {more : List Token} (h : s.pending = t :: more) :
    (rest lexer s).1 = .ok t :: (rest lexer { s with pending := more }).1 := by
  simp only [rest, h]
  split <;> rfl

theorem rest_finished (lexer : Lexer) (hpending : s.pending = []) (h : s.finished = true) :
    (rest lexer s).1 = [] := by
  simp only [rest, hpending, h, if_true, List.map_nil]

theorem rest_of_runs {given : List (List Token)} {last : Except Error Token}
    (hfinished : s.finished = false) (h : lexer.Runs s.place given last) :
    (rest lexer s).1 = s.pending.map .ok ++ ((lexer.kept given).map .ok ++ [last]) := by
  simp only [rest, hfinished, Bool.false_eq_true, if_false, h.tokensFrom_eq (Nat.le_refl _),
    List.append_assoc]
  rfl

theorem rest_step {q : Place} {tokens : List Token} (hpending : s.pending = [])
    (hfinished : s.finished = false) (hafter : s.place.cursor.after ≠ [])
    (h : lexer.step s.place = .ok (tokens, q)) :
    (rest lexer s).1 = (rest lexer { s with place := q, pending := tokens }).1 := by
  obtain ⟨first, hfirst, rfl⟩ := step_eq_ok_iff.1 h
  obtain ⟨given, last, hmore⟩ := lexer.exists_runs q
  rw [rest_of_runs hfinished (.step hafter hfirst hmore), hpending,
    rest_of_runs (s := { s with place := q, pending := _ }) hfinished hmore]
  simp

theorem nextWithin_finished (hpending : s.pending = []) (h : s.finished = true) (fuel : Nat) :
    nextWithin lexer fuel s = (none, s) := by
  cases fuel <;> simp only [nextWithin, hpending, h, if_true]

theorem nextWithin_atEnd (hpending : s.pending = []) (hfinished : s.finished = false)
    (h : s.place.cursor.after = []) (fuel : Nat) :
    nextWithin lexer fuel s = (some (.ok s.place.eof), { s with finished := true }) := by
  cases fuel <;> simp [nextWithin, hpending, hfinished, Cursor.atEnd, h, pure, Except.pure]

theorem nextWithin_step (hpending : s.pending = []) (hfinished : s.finished = false)
    (hafter : s.place.cursor.after ≠ []) (fuel : Nat) :
    nextWithin lexer (fuel + 1) s =
      match lexer.step s.place with
      | .error e => (some (.error e), { s with finished := true })
      | .ok (tokens, q) => nextWithin lexer fuel { s with place := q, pending := tokens } := by
  have hend : s.place.cursor.atEnd = false := by simpa [Cursor.atEnd] using hafter
  simp only [nextWithin, hpending, hfinished, hend, Bool.false_eq_true, if_false]
  rfl

theorem nextWithin_eq {s : Scan} {fuel : Nat} (hfuel : s.place.cursor.after.length ≤ fuel) :
    (nextWithin lexer fuel s).1 = (rest lexer s).1.head? ∧
      (rest lexer (nextWithin lexer fuel s).2).1 = (rest lexer s).1.tail := by
  cases hpending : s.pending with
  | cons t more =>
    rw [nextWithin_pending hpending, rest_pending hpending]
    exact ⟨rfl, rfl⟩
  | nil =>
    cases hfinished : s.finished with
    | true =>
      rw [nextWithin_finished hpending hfinished, rest_finished lexer hpending hfinished]
      exact ⟨rfl, rfl⟩
    | false =>
      by_cases hafter : s.place.cursor.after = []
      · have hbehind := rest_finished lexer (s := { s with finished := true }) hpending rfl
        rw [nextWithin_atEnd hpending hfinished hafter, hbehind,
          rest_of_runs hfinished (.eof hafter), hpending]
        exact ⟨rfl, rfl⟩
      · obtain ⟨fuel, rfl⟩ := Nat.exists_eq_add_one_of_ne_zero fun hzero =>
          hafter (List.length_eq_zero_iff.1 (Nat.le_zero.1 (hzero ▸ hfuel)))
        rw [nextWithin_step hpending hfinished hafter]
        cases hstep : lexer.step s.place with
        | error e =>
          have hbehind := rest_finished lexer (s := { s with finished := true }) hpending rfl
          rw [hbehind, rest_of_runs hfinished (.error hafter hstep), hpending]
          exact ⟨rfl, rfl⟩
        | ok x =>
          -- The rounds of one call go on until a step gives a token away.
          obtain ⟨first, hfirst, -⟩ := step_eq_ok_iff.1 hstep
          have := hfirst.length_lt
          rw [rest_step hpending hfinished hafter hstep]
          exact nextWithin_eq (s := { s with place := x.2, pending := x.1 }) (by
            change x.2.cursor.after.length ≤ fuel
            omega)
termination_by fuel

theorem next_eq (lexer : Lexer) (s : Scan) : (next lexer s).1 = (rest lexer s).1.head? ∧
    (rest lexer (next lexer s).2).1 = (rest lexer s).1.tail := nextWithin_eq (Nat.le_refl _)

theorem item_eq (lexer : Lexer) (n : Nat) (s : Scan) : item lexer n s = (rest lexer s).1[n]? := by
  induction n generalizing s with
  | zero => exact (next_eq lexer s).1.trans List.head?_eq_getElem?
  | succ n ih => rw [item_succ, ih, (next_eq lexer s).2, List.getElem?_tail]

theorem item_of_list {source text : String} {tokens : List Token}
    (h : lexer.list source text = .ok tokens) (n : Nat) :
    item lexer n (start source text) = tokens[n]?.map .ok := by
  obtain ⟨given, last, hruns⟩ := lexer.exists_runs (.start source text)
  rw [hruns.list_eq, map_eq_ok] at h
  obtain ⟨eof, rfl, rfl⟩ := h
  have hrest := rest_of_runs (s := start source text) rfl hruns
  rw [item_eq, hrest, ← List.getElem?_map, List.map_append]
  rfl

/-- The calls give the tokens that the steps of a run give, without the line breaks that are ignored,
then the end of the text or the first error, then nothing. The list of all tokens is the same. -/
theorem item_start (lexer : Lexer) (source text : String) :
    ∃ given last, lexer.Runs (.start source text) given last ∧
      (∀ n, item lexer n (start source text) = ((lexer.kept given).map .ok ++ [last])[n]?) ∧
      (last = .ok ⟨.span source text.utf8ByteSize text.utf8ByteSize
          (1 + text.toList.count '\n'), .eof, none⟩ ∨
        ∃ (reached : Place) (e : Error), reached.At text.toList ∧ lexer.step reached = .error e ∧
          last = .error e) ∧
      lexer.list source text = last.map (lexer.kept given ++ [·]) ∧
      ∀ place tokens next, lexer.step place = .ok (tokens, next) →
        place.cursor.offset < next.cursor.offset := by
  obtain ⟨given, last, hruns⟩ := lexer.exists_runs (.start source text)
  refine ⟨given, last, hruns, fun n => ?_, ?_, hruns.list_eq, fun place tokens next hstep => ?_⟩
  · rw [item_eq, rest_of_runs rfl hruns]
    rfl
  · rw [← Text.byteSize_toList]
    exact hruns.last_cases (Place.at_start source text)
  · obtain ⟨first, ⟨_, _, _, -, -, hnext, -⟩, -⟩ := step_eq_ok_iff.1 hstep
    exact hnext.lt

end Scan

end Packrat
