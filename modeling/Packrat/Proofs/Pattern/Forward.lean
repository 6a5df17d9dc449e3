import Packrat.Proofs.Pattern.Match

namespace Packrat

open Text (Cursor)

namespace Pattern

def Ahead (p q : Cursor) : Prop := ∃ taken rest, p.after = taken ++ rest ∧ q = p.pass taken rest

theorem Ahead.refl (p : Cursor) : Ahead p p := ⟨[], p.after, rfl, rfl⟩

theorem Ahead.trans {p q r : Cursor} (h : Ahead p q) (h' : Ahead q r) : Ahead p r := by
  obtain ⟨taken, rest, hp, rfl⟩ := h
  obtain ⟨taken', rest', hq, rfl⟩ := h'
  refine ⟨taken ++ taken', rest', ?_, Cursor.pass_pass ..⟩
  have hrest : rest = taken' ++ rest' := hq
  rw [hp, hrest, List.append_assoc]

theorem Ahead.of_next? {p q : Cursor} {c : Char} (h : p.next? = some (c, q)) : Ahead p q := by
  cases hafter : p.after with
  | nil =>
    rw [Cursor.next?, hafter] at h
    cases h
  | cons d rest =>
    rw [Cursor.next?_cons hafter] at h
    cases h
    exact ⟨[c], rest, hafter, rfl⟩

namespace Matcher

def Forward (m : Matcher) : Prop :=
  ∀ ⦃s k r⦄, m s k = some r → ∃ t : Progress, Ahead s.cursor t.cursor ∧ k t = some r

variable {m : Matcher}

theorem prefer_false (more done : Unit → Option Progress) :
    prefer false more done = (done ()).or (more ()) := by
  unfold prefer
  cases done () <;> rfl

theorem some_of_prefer {greedy : Bool} {more done : Unit → Option Progress} {r : Progress}
    (h : prefer greedy more done = some r) : more () = some r ∨ done () = some r := by
  cases greedy with
  | true =>
    rw [prefer_true, Option.or_eq_some_iff] at h
    exact h.imp_right And.right
  | false =>
    rw [prefer_false, Option.or_eq_some_iff] at h
    exact h.symm.imp_left And.right

theorem Forward.exactly (hm : m.Forward) (n : Nat) : (exactly m n).Forward := by
  induction n with
  | zero => exact fun s k r h => ⟨s, .refl _, h⟩
  | succ n ih =>
    intro s k r h
    obtain ⟨t, hst, h⟩ := hm h
    obtain ⟨u, htu, h⟩ := ih h
    exact ⟨u, hst.trans htu, h⟩

theorem Forward.atMost (hm : m.Forward) (greedy : Bool) (n : Nat) : (atMost m greedy n).Forward := by
  induction n with
  | zero => exact fun s k r h => ⟨s, .refl _, h⟩
  | succ n ih =>
    intro s k r h
    rcases some_of_prefer h with h | h
    · obtain ⟨t, hst, h⟩ := hm h
      obtain ⟨u, htu, h⟩ := ih h
      exact ⟨u, hst.trans htu, h⟩
    · exact ⟨s, .refl _, h⟩

theorem Forward.again (hm : m.Forward) (greedy : Bool) (n : Nat) : (again m greedy n).Forward := by
  induction n with
  | zero => exact fun s k r h => ⟨s, .refl _, h⟩
  | succ n ih =>
    intro s k r h
    rcases some_of_prefer h with h | h
    · obtain ⟨t, hst, h⟩ := hm h
      split at h
      · cases h
      · obtain ⟨u, htu, h⟩ := ih h
        exact ⟨u, hst.trans htu, h⟩
    · exact ⟨s, .refl _, h⟩

theorem Forward.oneOrMore (hm : m.Forward) (greedy : Bool) (n : Nat) :
    (oneOrMore m greedy n).Forward := by
  intro s k r h
  obtain ⟨t, hst, h⟩ := hm h
  split at h
  · exact ⟨t, hst, h⟩
  · obtain ⟨u, htu, h⟩ := hm.again greedy n h
    exact ⟨u, hst.trans htu, h⟩

theorem Forward.rep (hm : m.Forward) (fuel least : Nat) (most : Option Nat) (greedy : Bool) :
    (rep m fuel least most greedy).Forward := by
  intro s k r h
  unfold Matcher.rep at h
  split at h
  · split at h
    · exact ⟨s, .refl _, h⟩
    · obtain ⟨t, hst, h⟩ := hm.exactly _ h
      obtain ⟨u, htu, h⟩ := hm.atMost greedy _ h
      exact ⟨u, hst.trans htu, h⟩
  · rcases some_of_prefer h with h | h
    · exact hm.oneOrMore greedy fuel h
    · exact ⟨s, .refl _, h⟩
  · obtain ⟨t, hst, h⟩ := hm.exactly _ h
    obtain ⟨u, htu, h⟩ := hm.oneOrMore greedy fuel h
    exact ⟨u, hst.trans htu, h⟩

end Matcher

theorem forward_run (fuel : Nat) (p : Pattern) : Matcher.Forward (run fuel p) := by
  induction p with
  | empty => exact fun s k r h => ⟨s, .refl _, h⟩
  | set cs =>
    intro s k r h
    rw [run_set] at h
    obtain ⟨⟨c, q⟩, hnext, h⟩ := Option.bind_eq_some_iff.1 h
    dsimp only at h
    split at h
    · exact ⟨_, .of_next? hnext, h⟩
    · cases h
  | look l =>
    intro s k r h
    rw [run] at h
    split at h
    · exact ⟨s, .refl _, h⟩
    · cases h
  | group n p ih =>
    intro s k r h
    obtain ⟨t, hst, h⟩ := ih h
    exact ⟨{ t with groups := n :: t.groups }, hst, h⟩
  | cat p q ihp ihq =>
    intro s k r h
    obtain ⟨t, hst, h⟩ := ihp h
    obtain ⟨u, htu, h⟩ := ihq h
    exact ⟨u, hst.trans htu, h⟩
  | alt p q ihp ihq =>
    intro s k r h
    rw [run_alt, Option.or_eq_some_iff] at h
    rcases h with h | ⟨-, h⟩
    · exact ihp h
    · exact ihq h
  | rep least most greedy p ih => exact ih.rep fuel least most greedy

theorem ahead_of_matchAt? {p : Pattern} {place : Cursor} {r : Progress}
    (h : p.matchAt? place = some r) : Ahead place r.cursor := by
  obtain ⟨t, hahead, ht⟩ := forward_run _ p h
  cases ht
  exact hahead

end Pattern

end Packrat
