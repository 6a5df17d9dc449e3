import Packrat.Proofs.Lexer.Specs
import Packrat.Proofs.Pattern.Match

namespace Packrat

open Text (Cursor)

namespace Pattern

section Run

variable {fuel : Nat} {s : Progress} {k : Continuation}

def piece (q : Char) : Pattern :=
  alt (cat (set (.single '\\')) (set (.single q))) (set (.compl (.single q)))

variable {q c : Char} {cs : List Char}

theorem run_piece_nil (h : s.cursor.after = []) : run fuel (piece q) s k = none := by
  rw [piece, run_alt, run_cat, run_set_nil h, run_set_nil h]
  rfl

theorem run_piece_quote (hq : q ≠ '\\') (h : s.cursor.after = q :: cs) :
    run fuel (piece q) s k = none := by
  rw [piece, run_alt, run_cat, run_set_cons h, run_set_cons h]
  simp [hq]

theorem run_piece_escaped (hq : q ≠ '\\') (h : s.cursor.after = '\\' :: q :: cs) :
    run fuel (piece q) s k = (k (s.pass ['\\', q] cs)).or (k (s.pass ['\\'] (q :: cs))) := by
  have hquote : run fuel (set (.single q)) (s.pass ['\\'] (q :: cs)) k = k (s.pass ['\\', q] cs) := by
    rw [run_set_cons (s.after_pass _ _), Progress.pass_pass]
    simp
  rw [piece, run_alt, run_cat, run_set_cons h, run_set_cons h]
  simp [hq.symm, hquote]

theorem run_piece_other (hc : c ≠ q) (hescaped : ¬(c = '\\' ∧ cs.head? = some q))
    (h : s.cursor.after = c :: cs) : run fuel (piece q) s k = k (s.pass [c] cs) := by
  have hfirst : run fuel (cat (set (.single '\\')) (set (.single q))) s k = none := by
    rw [run_cat, run_set_cons h]
    split
    · next hmem =>
      cases cs with
      | nil => exact run_set_nil rfl
      | cons d cs =>
        rw [run_set_cons rfl]
        refine if_neg fun hd => hescaped ⟨by simpa using hmem, ?_⟩
        simpa using hd
    · rfl
  rw [piece, run_alt, hfirst, run_set_cons h]
  simp [hc]

theorem run_piece_congr (hq : q ≠ '\\') {k' : Continuation}
    (h : ∀ c taken rest, k (s.pass (c :: taken) rest) = k' (s.pass (c :: taken) rest)) :
    run fuel (piece q) s k = run fuel (piece q) s k' := by
  rcases hafter : s.cursor.after with _ | ⟨c, cs⟩
  · rw [run_piece_nil hafter, run_piece_nil hafter]
  · by_cases hc : c = q
    · subst hc
      rw [run_piece_quote hq hafter, run_piece_quote hq hafter]
    · by_cases hescaped : c = '\\' ∧ cs.head? = some q
      · obtain ⟨rfl, hhead⟩ := hescaped
        obtain ⟨cs, rfl⟩ := List.head?_eq_some_iff.1 hhead
        rw [run_piece_escaped hq hafter, run_piece_escaped hq hafter, h, h]
      · rw [run_piece_other hc hescaped hafter, run_piece_other hc hescaped hafter, h]

/-- The end of a quoted text, from behind its first quote on: what is within the quotes and what is
behind them. Where a quote follows a backslash the text goes on if it ends at a later quote. -/
def closing? (q : Char) : List Char → Option (List Char × List Char)
  | [] => none
  | [c] => if c = q then some ([], []) else none
  | c :: d :: cs =>
    if c = q then some ([], d :: cs)
    else if c = '\\' ∧ d = q then
      ((closing? q cs).map fun x => (c :: q :: x.1, x.2)).or (some ([c], cs))
    else (closing? q (d :: cs)).map fun x => (c :: x.1, x.2)

theorem closing?_self (cs : List Char) : closing? q (q :: cs) = some ([], cs) := by
  cases cs <;> simp [closing?]

theorem closing?_other {c d : Char} (hc : c ≠ q) (hd : ¬(c = '\\' ∧ d = q)) (cs : List Char) :
    closing? q (c :: d :: cs) = (closing? q (d :: cs)).map fun x => (c :: x.1, x.2) := by
  rw [closing?, if_neg hc, if_neg hd]

theorem closing?_backslash (hq : q ≠ '\\') (cs : List Char) :
    closing? q ('\\' :: q :: cs) =
      ((closing? q cs).map fun x => ('\\' :: q :: x.1, x.2)).or (some (['\\'], cs)) := by
  rw [closing?, if_neg hq.symm, if_pos ⟨rfl, rfl⟩]

theorem eq_append_of_closing? {cs : List Char} {x : List Char × List Char}
    (h : closing? q cs = some x) : cs = x.1 ++ q :: x.2 := by
  induction cs using closing?.induct q generalizing x with
  | case1 => cases h
  | case2 => 
    rw [closing?_self] at h
    cases h
    rfl
  | case3 c hc => 
    rw [closing?, if_neg hc] at h
    cases h
  | case4 d cs =>
    rw [closing?_self] at h
    cases h
    rfl
  | case5 c d cs hc hescaped ih =>
    obtain ⟨rfl, rfl⟩ := hescaped
    rw [closing?_backslash (Ne.symm hc)] at h
    rcases hclosing : closing? d cs with _ | y
    · rw [hclosing] at h
      cases h
      rfl
    · rw [hclosing] at h
      cases h
      rw [ih hclosing]
      rfl
  | case6 c d cs hc hescaped ih =>
    rw [closing?_other hc hescaped] at h
    obtain ⟨y, hy, rfl⟩ := Option.map_eq_some_iff.1 h
    rw [ih hy]
    rfl

theorem exists_closing?_of_mem {cs : List Char} (h : q ∈ cs) : ∃ x, closing? q cs = some x := by
  induction cs using closing?.induct q with
  | case1 => cases h
  | case2 => exact ⟨_, closing?_self _⟩
  | case3 c hc => exact absurd (List.mem_singleton.1 h) (Ne.symm hc)
  | case4 d cs => exact ⟨_, closing?_self _⟩
  | case5 c d cs hc hescaped ih =>
    obtain ⟨rfl, rfl⟩ := hescaped
    rw [closing?_backslash (Ne.symm hc)]
    cases closing? d cs with
    | none => exact ⟨_, rfl⟩
    | some x => exact ⟨_, rfl⟩
  | case6 c d cs hc hescaped ih =>
    obtain ⟨x, hx⟩ := ih ((List.mem_cons.1 h).resolve_left (Ne.symm hc))
    exact ⟨_, by rw [closing?_other hc hescaped, hx]; rfl⟩

theorem again_succ (m : Matcher) (n : Nat) :
    Matcher.again m true (n + 1) s k =
      (m s fun t => if t.samePlace s then none else Matcher.again m true n t k).or (k s) :=
  prefer_true _ _

def untilQuote (fuel : Nat) (q : Char) (n : Nat) (s : Progress) : Option Progress :=
  Matcher.again (run fuel (piece q)) true n s fun t => run fuel (set (.single q)) t some

theorem untilQuote_succ (n : Nat) :
    untilQuote fuel q (n + 1) s =
      (run fuel (piece q) s fun t => if t.samePlace s then none else untilQuote fuel q n t).or
        (run fuel (set (.single q)) s some) := again_succ _ _

theorem untilQuote_nil (n : Nat) (h : s.cursor.after = []) : untilQuote fuel q (n + 1) s = none := by
  rw [untilQuote_succ, run_piece_nil h, run_set_nil h]
  rfl

theorem untilQuote_quote (hq : q ≠ '\\') (n : Nat) (h : s.cursor.after = q :: cs) :
    untilQuote fuel q (n + 1) s = some (s.pass [q] cs) := by
  rw [untilQuote_succ, run_piece_quote hq h, run_set_cons h]
  simp

theorem run_quote_other (hc : c ≠ q) (h : s.cursor.after = c :: cs) :
    run fuel (set (.single q)) s k = none := by
  rw [run_set_cons h]
  simp [hc]

theorem untilQuote_escaped (hq : q ≠ '\\') (n : Nat) (h : s.cursor.after = '\\' :: q :: cs) :
    untilQuote fuel q (n + 1) s =
      (untilQuote fuel q n (s.pass ['\\', q] cs)).or
        (untilQuote fuel q n (s.pass ['\\'] (q :: cs))) := by
  rw [untilQuote_succ, run_piece_escaped hq h, run_quote_other hq.symm h]
  simp [samePlace_pass]

theorem untilQuote_other (hc : c ≠ q) (hescaped : ¬(c = '\\' ∧ cs.head? = some q)) (n : Nat)
    (h : s.cursor.after = c :: cs) :
    untilQuote fuel q (n + 1) s = untilQuote fuel q n (s.pass [c] cs) := by
  rw [untilQuote_succ, run_piece_other hc hescaped h, run_quote_other hc h]
  simp [samePlace_pass]

theorem untilQuote_eq (hq : q ≠ '\\') {n : Nat} (hn : cs.length < n) (h : s.cursor.after = cs) :
    untilQuote fuel q n s = (closing? q cs).map fun x => s.pass (x.1 ++ [q]) x.2 := by
  induction cs using closing?.induct q generalizing s n with
  | case1 =>
    obtain ⟨n, rfl⟩ := Nat.exists_eq_add_one_of_ne_zero (Nat.ne_of_gt hn)
    exact untilQuote_nil n h
  | case2 =>
    obtain ⟨n, rfl⟩ := Nat.exists_eq_add_one_of_ne_zero (Nat.ne_zero_of_lt hn)
    simp [untilQuote_quote hq n h, closing?]
  | case3 c hc =>
    obtain ⟨n, rfl⟩ : ∃ m, n = m + 2 := ⟨n - 2, by simp at hn; omega⟩
    rw [untilQuote_other hc (by simp) _ h, untilQuote_nil n (s.after_pass _ _)]
    simp [closing?, hc]
  | case4 d cs =>
    obtain ⟨n, rfl⟩ := Nat.exists_eq_add_one_of_ne_zero (Nat.ne_zero_of_lt hn)
    simp [untilQuote_quote hq n h, closing?]
  | case5 c d cs hc hescaped ih =>
    obtain ⟨rfl, rfl⟩ := hescaped
    obtain ⟨n, rfl⟩ : ∃ m, n = m + 2 := ⟨n - 2, by simp at hn; omega⟩
    rw [untilQuote_escaped hq _ h, ih (by simp at hn; omega) (s.after_pass _ _),
      untilQuote_quote hq n (s.after_pass _ _)]
    cases hclosing : closing? d cs <;> simp [closing?, hc, hclosing, Progress.pass_pass]
  | case6 c d cs hc hescaped ih =>
    obtain ⟨n, rfl⟩ := Nat.exists_eq_add_one_of_ne_zero (Nat.ne_zero_of_lt hn)
    rw [untilQuote_other hc (by simpa using hescaped) n h,
      ih (by simpa using hn) (s.after_pass _ _)]
    cases hclosing : closing? q (d :: cs) <;>
      simp [closing?, hc, hescaped, hclosing, Progress.pass_pass]

theorem rep_piece (hq : q ≠ '\\') (n : Nat) :
    Matcher.rep (run fuel (piece q)) n 0 none true s (fun t => run fuel (set (.single q)) t some) =
      untilQuote fuel q (n + 1) s := by
  have hfirst : Matcher.oneOrMore (run fuel (piece q)) true n s
      (fun t => run fuel (set (.single q)) t some) =
      run fuel (piece q) s fun t => if t.samePlace s then none else untilQuote fuel q n t := by
    refine run_piece_congr hq fun c taken rest => ?_
    rw [samePlace_pass]
    rfl
  rw [untilQuote_succ, ← hfirst]
  unfold Matcher.rep
  exact prefer_true _ _

theorem matchAt?_quoted (hq : q ≠ '\\') {p : Cursor} (h : p.after = q :: cs) :
    (quoted q).matchAt? p = (closing? q cs).map fun x => ⟨p.pass (q :: x.1 ++ [q]) x.2, []⟩ := by
  have hstart : (⟨p, []⟩ : Progress).cursor.after = q :: cs := h
  change run _ (cat (set (.single q)) (cat (rep 0 none true (piece q)) (set (.single q))))
    ⟨p, []⟩ some = _
  rw [run_cat, run_set_cons hstart, if_pos (by simp), h]
  refine (rep_piece hq _).trans ?_
  rw [untilQuote_eq hq (by rw [List.length_cons]; omega) (Progress.after_pass _ _ _)]
  simp only [Progress.pass_pass]
  rfl

end Run

end Pattern

end Packrat
