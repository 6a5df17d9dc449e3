import Packrat.Proofs.Lexer.Direct
import Packrat.Proofs.Lexer.Specs
import Packrat.Proofs.Pattern.Match

namespace Packrat

open Text (Cursor byteSize)

namespace Pattern

theorem Progress.pass_nil (s : Progress) : s.pass [] s.cursor.after = s := rfl

section Run

variable {fuel n : Nat} {s : Progress} {k : Continuation} {cs : CharSet} {c : Char}
  {rest : List Char}

def behindMembers (cs : CharSet) (k : Continuation) : Progress → List Char → Option Progress
  | s, [] => k s
  | s, c :: rest =>
    if cs.mem c then (behindMembers cs k (s.pass [c] rest) rest).or (k s) else k s

theorem again_set (hn : s.cursor.after.length ≤ n) :
    Matcher.again (run fuel (set cs)) true n s k = behindMembers cs k s s.cursor.after := by
  induction n generalizing s with
  | zero =>
    have hnil : s.cursor.after = [] := List.length_eq_zero_iff.1 (Nat.le_zero.1 hn)
    rw [hnil]
    rfl
  | succ n ih =>
    have hagain : Matcher.again (run fuel (set cs)) true (n + 1) s k =
        (run fuel (set cs) s fun t =>
          if t.samePlace s then none else Matcher.again (run fuel (set cs)) true n t k).or (k s) :=
      prefer_true _ _
    rw [hagain]
    cases hafter : s.cursor.after with
    | nil =>
      rw [run_set_nil hafter]
      rfl
    | cons c rest =>
      rw [hafter, List.length_cons] at hn
      have hrest : Matcher.again (run fuel (set cs)) true n (s.pass [c] rest) k =
          behindMembers cs k (s.pass [c] rest) rest := ih (Nat.le_of_succ_le_succ hn)
      rw [run_set_cons hafter, samePlace_pass, behindMembers]
      simp only [Bool.false_eq_true, if_false, hrest]
      split
      · rfl
      · rfl

/-- Either `k` succeeds everywhere, or it does not succeed before a member. -/
def Settled (cs : CharSet) (k : Continuation) : Prop :=
  (∀ t, (k t).isSome) ∨ ∀ t c rest, t.cursor.after = c :: rest → cs.mem c = true → k t = none

theorem behindMembers_eq (h : Settled cs k) {text : List Char} (hs : s.cursor.after = text) :
    behindMembers cs k s text = k (s.pass (text.takeWhile cs.mem) (text.dropWhile cs.mem)) := by
  induction text generalizing s with
  | nil =>
    have hpass := s.pass_nil
    rw [hs] at hpass
    exact congrArg k hpass.symm
  | cons c rest ih =>
    rw [behindMembers]
    cases hc : cs.mem c with
    | false =>
      rw [List.takeWhile_cons_of_neg (by simp [hc]), List.dropWhile_cons_of_neg (by simp [hc]), ← hs,
        s.pass_nil]
      rfl
    | true =>
      rw [List.takeWhile_cons_of_pos hc, List.dropWhile_cons_of_pos hc, if_pos rfl,
        ih (s.after_pass _ _), Progress.pass_pass, List.singleton_append]
      rcases h with hall | hnone
      · obtain ⟨r, hr⟩ := Option.isSome_iff_exists.1 (hall (s.pass (c :: rest.takeWhile cs.mem)
          (rest.dropWhile cs.mem)))
        rw [hr]
        rfl
      · rw [hnone s c rest hs hc, Option.or_none]

theorem oneOrMore_set (hfuel : s.cursor.after.length ≤ fuel) (h : Settled cs k) :
    Matcher.oneOrMore (run fuel (set cs)) true fuel s k =
      (Direct.run? cs.mem s.cursor.after).bind fun text =>
        k (s.pass text (s.cursor.after.dropWhile cs.mem)) := by
  unfold Matcher.oneOrMore
  cases hafter : s.cursor.after with
  | nil =>
    rw [run_set_nil hafter]
    rfl
  | cons c rest =>
    rw [hafter, List.length_cons] at hfuel
    have hagain : Matcher.again (run fuel (set cs)) true fuel (s.pass [c] rest) k =
        behindMembers cs k (s.pass [c] rest) rest := again_set (Nat.le_of_succ_le hfuel)
    rw [run_set_cons hafter, samePlace_pass, hagain, behindMembers_eq h (s.after_pass _ _),
      Progress.pass_pass, Direct.run?]
    cases hc : cs.mem c with
    | false => rfl
    | true =>
      rw [List.dropWhile_cons_of_pos hc]
      rfl

theorem run_rep_one (hfuel : s.cursor.after.length ≤ fuel) (h : Settled cs k) :
    run fuel (rep 1 none true (set cs)) s k =
      (Direct.run? cs.mem s.cursor.after).bind fun text =>
        k (s.pass text (s.cursor.after.dropWhile cs.mem)) :=
  oneOrMore_set hfuel h

theorem run_rep_one_of_not_mem (h : s.cursor.after = c :: rest) (hc : cs.mem c = false) :
    run fuel (rep 1 none true (set cs)) s k = none := by
  change Matcher.oneOrMore (run fuel (set cs)) true fuel s k = none
  rw [Matcher.oneOrMore, run_set_cons h, hc]
  rfl

theorem run_rep_zero (hfuel : s.cursor.after.length ≤ fuel) (h : Settled cs k) :
    run fuel (rep 0 none true (set cs)) s k =
      k (s.pass (s.cursor.after.takeWhile cs.mem) (s.cursor.after.dropWhile cs.mem)) := by
  have hrep : run fuel (rep 0 none true (set cs)) s k =
      (Matcher.oneOrMore (run fuel (set cs)) true fuel s k).or (k s) :=
    prefer_true (fun _ => Matcher.oneOrMore (run fuel (set cs)) true fuel s k) fun _ => k s
  rw [hrep, oneOrMore_set hfuel h]
  cases hafter : s.cursor.after with
  | nil =>
    have hpass := s.pass_nil
    rw [hafter] at hpass
    exact congrArg k hpass.symm
  | cons c rest =>
    rw [Direct.run?]
    cases hc : cs.mem c with
    | false =>
      rw [List.takeWhile_cons_of_neg (by simp [hc]), List.dropWhile_cons_of_neg (by simp [hc]),
        ← hafter, s.pass_nil]
      rfl
    | true =>
      rw [List.takeWhile_cons_of_pos hc, List.dropWhile_cons_of_pos hc, if_pos rfl, Option.bind_some]
      rcases h with hall | hnone
      · obtain ⟨r, hr⟩ := Option.isSome_iff_exists.1 (hall (s.pass (c :: rest.takeWhile cs.mem)
          (rest.dropWhile cs.mem)))
        rw [hr]
        rfl
      · rw [hnone s c rest hafter hc, Option.or_none]

theorem run_optional (p : Pattern) :
    run fuel (optional p) s k = (run fuel p s k).or (k s) :=
  prefer_true (fun _ => run fuel p s k) fun _ => k s

theorem run_single_self {d : Char} (h : s.cursor.after = d :: rest) :
    run fuel (set (.single d)) s k = k (s.pass [d] rest) := by
  rw [run_set_cons h, if_pos (by simp)]

theorem run_single_of_ne {d : Char} (h : s.cursor.after.head? ≠ some d) :
    run fuel (set (.single d)) s k = none := by
  cases hafter : s.cursor.after with
  | nil => exact run_set_nil hafter
  | cons c rest =>
    rw [hafter] at h
    rw [run_set_cons hafter, if_neg fun hmem => h (by simpa using hmem)]

theorem run_cats_last (p : Pattern) : run fuel (cats [p]) s k = run fuel p s k := rfl

theorem run_cats (p : Pattern) (ps : List Pattern) :
    run fuel (cats (p :: ps)) s k = run fuel p s fun t => run fuel (cats ps) t k := by
  cases ps with
  | nil => rfl
  | cons q ps => rfl

end Run

end Pattern

end Packrat
