import Packrat.Proofs.Pattern.Match

namespace Packrat.Pattern

open Text (Cursor)

def renumber (k : Nat) : Pattern → Pattern
  | empty => empty
  | set cs => set cs
  | look l => look l
  | group n p => group (n + k) (p.renumber k)
  | cat p q => cat (p.renumber k) (q.renumber k)
  | alt p q => alt (p.renumber k) (q.renumber k)
  | rep least most greedy p => rep least most greedy (p.renumber k)

def groupCount : Pattern → Nat
  | empty | set _ | look _ => 0
  | group _ p => p.groupCount + 1
  | cat p q | alt p q => p.groupCount + q.groupCount
  | rep _ _ _ p => p.groupCount

theorem liveGroups_le_groupCount (p : Pattern) : p.liveGroups ≤ p.groupCount := by
  induction p with
  | empty | set | look => exact Nat.le_refl _
  | group n p ih => exact Nat.add_le_add_right ih 1
  | cat p q ihp ihq | alt p q ihp ihq => exact Nat.add_le_add ihp ihq
  | rep least most greedy p ih =>
    rw [liveGroups, groupCount]
    split
    · exact Nat.zero_le _
    · exact ih

theorem renumber_cats (k : Nat) (ps : List Pattern) :
    (cats ps).renumber k = cats (ps.map (renumber k)) := by
  induction ps with
  | nil => rfl
  | cons p ps ih =>
    cases ps with
    | nil => rfl
    | cons q ps => exact congrArg (cat _) ih

theorem renumber_alts (k : Nat) (ps : List Pattern) :
    (alts ps).renumber k = alts (ps.map (renumber k)) := by
  induction ps with
  | nil => rfl
  | cons p ps ih =>
    cases ps with
    | nil => rfl
    | cons q ps => exact congrArg (alt _) ih

def Progress.renumber (k : Nat) (s : Progress) : Progress :=
  { s with groups := s.groups.map (· + k) }

namespace Matcher

/-- What `m` does, `m'` does with numbers that are `k` higher, whatever comes behind it. -/
def Renumbers (k : Nat) (m m' : Matcher) : Prop :=
  ∀ (out : Progress → Progress) (s : Progress) (next next' : Continuation),
    (∀ t, next' (t.renumber k) = (next t).map out) →
      m' (s.renumber k) next' = (m s next).map out

theorem prefer_map {greedy : Bool} {more done more' done' : Unit → Option Progress}
    {out : Progress → Progress} (hmore : more' () = (more ()).map out)
    (hdone : done' () = (done ()).map out) :
    prefer greedy more' done' = (prefer greedy more done).map out := by
  unfold prefer
  rw [hmore, hdone]
  cases greedy <;> cases more () <;> cases done () <;> rfl

namespace Renumbers

variable {k : Nat} {m m' : Matcher}

theorem exactly (h : Renumbers k m m') (n : Nat) :
    Renumbers k (Matcher.exactly m n) (Matcher.exactly m' n) := by
  intro out s next next' hnext
  induction n generalizing s next next' with
  | zero => exact hnext s
  | succ n ih => exact h out s _ _ fun t => ih t next next' hnext

theorem atMost (h : Renumbers k m m') (greedy : Bool) (n : Nat) :
    Renumbers k (Matcher.atMost m greedy n) (Matcher.atMost m' greedy n) := by
  intro out s next next' hnext
  induction n generalizing s next next' with
  | zero => exact hnext s
  | succ n ih =>
    exact prefer_map (h out s _ _ fun t => ih t next next' hnext) (hnext s)

theorem again (h : Renumbers k m m') (greedy : Bool) (fuel : Nat) :
    Renumbers k (Matcher.again m greedy fuel) (Matcher.again m' greedy fuel) := by
  intro out s next next' hnext
  induction fuel generalizing s next next' with
  | zero => exact hnext s
  | succ fuel ih =>
    refine prefer_map (h out s _ _ fun t => ?_) (hnext s)
    change (if t.samePlace s then none else _) = Option.map out (if t.samePlace s then none else _)
    split
    · rfl
    · exact ih t next next' hnext

theorem oneOrMore (h : Renumbers k m m') (greedy : Bool) (fuel : Nat) :
    Renumbers k (Matcher.oneOrMore m greedy fuel) (Matcher.oneOrMore m' greedy fuel) := by
  intro out s next next' hnext
  refine h out s _ _ fun t => ?_
  change (if t.samePlace s then _ else _) = Option.map out (if t.samePlace s then _ else _)
  split
  · exact hnext t
  · exact h.again greedy fuel out t next next' hnext

theorem rep (h : Renumbers k m m') (fuel least : Nat) (most : Option Nat) (greedy : Bool) :
    Renumbers k (Matcher.rep m fuel least most greedy) (Matcher.rep m' fuel least most greedy) := by
  intro out s next next' hnext
  cases most with
  | some most =>
    unfold Matcher.rep
    dsimp only
    split
    · exact hnext s
    · exact h.exactly least out s _ _ fun t => h.atMost greedy _ out t next next' hnext
  | none =>
    cases least with
    | zero =>
      unfold Matcher.rep
      refine prefer_map ?_ ?_
      · exact h.oneOrMore greedy fuel out s next next' hnext
      · exact hnext s
    | succ least =>
      exact h.exactly least out s _ _ fun t => h.oneOrMore greedy fuel out t next next' hnext

end Renumbers

end Matcher

theorem run_renumber (k fuel : Nat) (p : Pattern) :
    Matcher.Renumbers k (run fuel p) (run fuel (p.renumber k)) := by
  induction p with
  | empty => exact fun out s next next' hnext => hnext s
  | set cs =>
    intro out s next next' hnext
    rw [renumber, run_set, run_set]
    change s.cursor.next?.bind _ = _
    cases s.cursor.next? with
    | none => rfl
    | some x =>
      dsimp only [Option.bind_some]
      split
      · exact hnext { s with cursor := x.2 }
      · rfl
  | look l =>
    intro out s next next' hnext
    unfold renumber run
    change (if l.holds s.cursor then _ else _) = _
    split
    · exact hnext s
    · rfl
  | group n p ih =>
    intro out s next next' hnext
    exact ih out s _ _ fun t => hnext { t with groups := n :: t.groups }
  | cat p q ihp ihq =>
    intro out s next next' hnext
    exact ihp out s _ _ fun t => ihq out t next next' hnext
  | alt p q ihp ihq =>
    intro out s next next' hnext
    rw [renumber, run_alt, run_alt, ihp out s next next' hnext, ihq out s next next' hnext,
      Option.map_or]
  | rep least most greedy p ih => exact ih.rep fuel least most greedy

theorem matchAt?_group (n : Nat) (p : Pattern) (place : Cursor) :
    (group n (p.renumber n)).matchAt? place =
      (p.matchAt? place).map fun r =>
        { r.renumber n with groups := n :: (r.renumber n).groups } := by
  unfold matchAt?
  exact run_renumber n _ p _ ⟨place, []⟩ some _ fun t => rfl

end Packrat.Pattern
