import Packrat.Proofs.Pattern.Renumber
import Packrat.Proofs.Pattern.Runs

namespace Packrat.Pattern

namespace Item

def renumber (k : Nat) (x : Item) : Item := { x with pattern := x.pattern.renumber k }

theorem depthOf_renumber (k : Nat) (xs : List Item) : depthOf (xs.map (renumber k)) = depthOf xs := by
  rcases xs with _ | ⟨x, _ | ⟨y, xs⟩⟩
  · rfl
  · rfl
  · simp [depthOf, renumber, Function.comp_def]

theorem sequence_renumber (k : Nat) (xs : List Item) :
    sequence (xs.map (renumber k)) = (sequence xs).renumber k := by
  unfold sequence
  rw [depthOf_renumber]
  simp [renumber, renumber_cats, Function.comp_def]

theorem choice_renumber (k : Nat) (xs : List Item) :
    choice (xs.map (renumber k)) = (choice xs).renumber k := by
  unfold choice
  rw [depthOf_renumber]
  simp [renumber, renumber_alts, Function.comp_def]

end Item

namespace Level

def renumber (k : Nat) (l : Level) : Level :=
  ⟨l.branches.map (Item.renumber k), l.items.map (Item.renumber k)⟩

theorem push_renumber (k : Nat) (l : Level) (x : Item) :
    (l.push x).renumber k = (l.renumber k).push (x.renumber k) := rfl

theorem branch_renumber (k : Nat) (l : Level) : l.branch.renumber k = (l.renumber k).branch := by
  unfold branch renumber
  rw [← List.map_reverse, Item.sequence_renumber]
  rfl

theorem finish_renumber (k : Nat) (l : Level) : (l.renumber k).finish = l.finish.renumber k := by
  unfold finish
  rw [← branch_renumber, ← Item.choice_renumber]
  simp [renumber]

end Level

def Frame.renumber (k : Nat) (frame : Frame) : Frame :=
  { frame with number := frame.number.map (· + k), outer := frame.outer.renumber k }

namespace State

/-- The state in which something has been read inside of another state. -/
def within (outer st : State) : State where
  frames := st.frames.map (Frame.renumber outer.groups) ++ outer.frames
  level := st.level.renumber outer.groups
  flags := st.flags
  groups := st.groups + outer.groups
  names := st.names ++ outer.names

variable {outer st st' : State}

theorem push_within {x : Item} (hx : x.renumber outer.groups = x) :
    (outer.within st).push x = outer.within (st.push x) := by
  unfold push within
  rw [Level.push_renumber, hx]

theorem openNumbered_within :
    (outer.within st).openNumbered = outer.within st.openNumbered := by
  simp [openNumbered, openGroup, within, Frame.renumber, Level.renumber, Nat.add_right_comm]

theorem closeGroup_within (h : st.closeGroup = .ok st') :
    (outer.within st).closeGroup = .ok (outer.within st') := by
  unfold closeGroup at h
  split at h
  · cases h
  · next frame frames hframes =>
    cases h
    unfold closeGroup within
    rw [hframes]
    simp only [List.map_cons, List.cons_append, Level.finish_renumber, Frame.renumber]
    cases frame.number <;> rfl

theorem rep_within {least : Nat} {most : Option Nat} {greedy : Bool}
    (h : st.rep least most greedy = .ok st') :
    (outer.within st).rep least most greedy = .ok (outer.within st') := by
  unfold rep at h
  split at h
  · cases h
  · next x items hitems =>
    split at h
    · cases h
    · next hswitch =>
      cases h
      unfold rep within Level.renumber
      rw [hitems]
      simp only [List.map_cons, Item.renumber, hswitch]
      rfl

end State

theorem Op.apply_within {outer st st' : State} {op : Op} (h : op.apply st = .ok st') :
    op.apply (outer.within st) = .ok (outer.within st') ∨
      outer.names ≠ [] ∧ ∃ e, op.apply (outer.within st) = .error e := by
  cases op with
  | set s depth => cases h; exact .inl (congrArg _ (State.push_within rfl))
  | look l => cases h; exact .inl (congrArg _ (State.push_within rfl))
  | modes f => cases h; exact .inl (congrArg _ (@State.push_within outer { st with flags := f } _ rfl))
  | openPlain f => cases h; exact .inl rfl
  | openNumbered => cases h; exact .inl (congrArg _ State.openNumbered_within)
  | openNamed name =>
    simp only [apply] at h ⊢
    split at h
    · cases h
    · next hnew =>
      cases h
      split
      · next hused =>
        refine .inr ⟨fun hnil => hnew ?_, _, rfl⟩
        simpa [State.within, hnil] using hused
      · exact .inl (congrArg Except.ok
          (@State.openNumbered_within outer { st with names := name :: st.names }))
  | close => exact .inl (State.closeGroup_within h)
  | branch =>
    cases h
    refine .inl (congrArg Except.ok ?_)
    unfold State.within
    rw [Level.branch_renumber]
  | rep least most greedy => exact .inl (State.rep_within h)

theorem step_within {outer st st' : State} {c : Char} {cs left : List Char}
    (h : step st c cs = .ok (st', left)) :
    step (outer.within st) c cs = .ok (outer.within st', left) ∨
      outer.names ≠ [] ∧ ∃ e, step (outer.within st) c cs = .error e := by
  obtain ⟨⟨op, rest⟩, hop, h⟩ := bind_eq_ok.1 h
  obtain ⟨st₁, happly, h⟩ := bind_eq_ok.1 h
  cases h
  have hstep : step (outer.within st) c cs =
      op.apply (outer.within st) >>= fun st => .ok (st, left) := by
    change (readOp st.flags c cs >>= fun x => _) = _
    rw [hop]
    rfl
  rw [hstep]
  rcases Op.apply_within happly with h | ⟨hnames, e, h⟩
  · exact .inl (by rw [h]; rfl)
  · exact .inr ⟨hnames, e, by rw [h]; rfl⟩

theorem Reads.within {outer st st' : State} {cs left : List Char} (h : Reads st cs st' left)
    {more : List Char}
    (hread : outer.names = [] ∨ ∃ p, readAll (outer.within st) (cs ++ more) = .ok p)
    (hne : left ≠ []) :
    Reads (outer.within st) (cs ++ more) (outer.within st') (left ++ more) := by
  induction h with
  | refl => exact .refl _ _
  | @step st st' _ cs rest middle left c hskip hstep hreads ih =>
    have hmiddle : middle ≠ [] := by
      rintro rfl
      exact hne (List.suffix_nil.1 hreads.suffix)
    have hskip' : (outer.within st).flags.skip (cs ++ more) = c :: (rest ++ more) := by
      change st.flags.skip (cs ++ more) = _
      rw [st.flags.skip_append (by rw [hskip]; simp), hskip, List.cons_append]
    rw [readAll_eq_step hskip'] at hread
    have hstep := (stable_step st c).extend hstep hmiddle more
    rcases step_within hstep with h | ⟨hnames, e, h⟩
    · rw [h] at hread
      exact .step hskip' h (ih hread hne)
    · obtain ⟨p, hp⟩ := hread.resolve_left hnames
      rw [h] at hp
      cases hp

end Packrat.Pattern
