import Packrat.Proofs.Pattern.Steps

namespace Packrat.Pattern

theorem readFrom_fuel {n m : Nat} {st : State} {cs : List Char} (hn : cs.length < n)
    (hm : cs.length < m) : readFrom n st cs = readFrom m st cs := by
  induction n generalizing m st cs with
  | zero => cases hn
  | succ n ih =>
    cases m with
    | zero => cases hm
    | succ m =>
      have hlen := (st.flags.skip_suffix cs).length_le
      unfold readFrom
      rcases hskip : st.flags.skip cs with _ | ⟨c, rest⟩
      · rfl
      · rw [hskip, List.length_cons] at hlen
        dsimp only
        cases hstep : step st c rest with
        | error e => rfl
        | ok x =>
          have := ((stable_step st c).suffix hstep).length_le
          exact @ih m x.1 x.2 (by omega) (by omega)

def readAll (st : State) (cs : List Char) : Except Fault Pattern := readFrom (cs.length + 1) st cs

theorem read_eq (text : List Char) : read text = readAll {} text := rfl

theorem readAll_eq_finish {st : State} {cs : List Char} (h : st.flags.skip cs = []) :
    readAll st cs = st.finish := by
  unfold readAll readFrom
  rw [h]

theorem readAll_eq_step {st : State} {cs rest : List Char} {c : Char}
    (h : st.flags.skip cs = c :: rest) :
    readAll st cs = step st c rest >>= fun x => readAll x.1 x.2 := by
  rw [readAll, readFrom, h]
  dsimp only
  cases hstep : step st c rest with
  | error e => rfl
  | ok x =>
    have hlen := (st.flags.skip_suffix cs).length_le
    have := ((stable_step st c).suffix hstep).length_le
    rw [h, List.length_cons] at hlen
    change readFrom cs.length x.1 x.2 = readFrom (x.2.length + 1) x.1 x.2
    refine readFrom_fuel ?_ ?_ <;> omega

inductive Reads : State → List Char → State → List Char → Prop
  | refl (st : State) (cs : List Char) : Reads st cs st cs
  | step {st st' st'' : State} {cs rest middle left : List Char} {c : Char} :
      st.flags.skip cs = c :: rest → step st c rest = .ok (st', middle) →
        Reads st' middle st'' left → Reads st cs st'' left

namespace Reads

variable {st st' st'' : State} {cs left : List Char}

theorem trans {middle : List Char} (h : Reads st cs st' middle) (h' : Reads st' middle st'' left) :
    Reads st cs st'' left := by
  induction h with
  | refl => exact h'
  | step hskip hstep _ ih => exact .step hskip hstep (ih h')

theorem readAll_eq (h : Reads st cs st' left) : readAll st cs = readAll st' left := by
  induction h with
  | refl => rfl
  | step hskip hstep _ ih =>
    rw [readAll_eq_step hskip, hstep]
    exact ih

theorem suffix (h : Reads st cs st' left) : left <:+ cs := by
  induction h with
  | refl => exact List.suffix_refl _
  | @step st _ _ cs rest _ _ c hskip hstep _ ih =>
    have hrest := st.flags.skip_suffix cs
    rw [hskip] at hrest
    exact ((ih.trans ((stable_step st c).suffix hstep)).trans (List.suffix_cons _ _)).trans hrest

theorem eq_of_nil (h : Reads st [] st' left) : st' = st ∧ left = [] := by
  cases h with
  | refl => exact ⟨rfl, rfl⟩
  | step hskip =>
    have := (st.flags.skip_suffix []).length_le
    rw [hskip] at this
    cases this

theorem close (h : Reads st cs st' left) (hend : st'.flags.skip left = []) :
    ∃ left', Reads st (cs ++ [')']) st' left' ∧
      (st'.flags.skip left' = [')'] ∨ st'.flags.skip left' = []) := by
  have parenthesis (f : Flags) : f.skip [')'] = [')'] := by
    unfold Flags.skip
    split <;> rfl
  induction h with
  | refl st cs => exact ⟨_, .refl _ _, st.flags.skip_close hend⟩
  | @step st st' _ cs rest middle left c hskip hstep hreads ih =>
    have hskip' : st.flags.skip (cs ++ [')']) = c :: (rest ++ [')']) := by
      rw [st.flags.skip_append (by rw [hskip]; simp), hskip, List.cons_append]
    by_cases hmiddle : middle = []
    · subst hmiddle
      obtain ⟨rfl, rfl⟩ := hreads.eq_of_nil
      rcases (stable_step st c).close hstep with hstep | hstep
      · exact ⟨_, .step hskip' hstep (.refl _ _), .inl (parenthesis _)⟩
      · exact ⟨_, .step hskip' hstep (.refl _ _), .inr hend⟩
    · obtain ⟨left', hleft, h⟩ := ih hend
      exact ⟨left', .step hskip' ((stable_step st c).extend hstep hmiddle _) hleft, h⟩

end Reads

theorem exists_reads {st : State} {cs : List Char} {p : Pattern} (h : readAll st cs = .ok p) :
    ∃ st' left, Reads st cs st' left ∧ st'.flags.skip left = [] ∧ st'.finish = .ok p := by
  induction hn : cs.length using Nat.strongRecOn generalizing st cs with
  | ind n ih =>
    rcases hskip : st.flags.skip cs with _ | ⟨c, rest⟩
    · rw [readAll_eq_finish hskip] at h
      exact ⟨st, cs, .refl _ _, hskip, h⟩
    · rw [readAll_eq_step hskip] at h
      obtain ⟨x, hstep, h⟩ := bind_eq_ok.1 h
      have hlen := (st.flags.skip_suffix cs).length_le
      have := ((stable_step st c).suffix hstep).length_le
      rw [hskip, List.length_cons] at hlen
      obtain ⟨st', left, hreads, hend⟩ := ih _ (by omega) h rfl
      exact ⟨st', left, .step hskip hstep hreads, hend⟩

end Packrat.Pattern
