import Mathlib
import Packrat.Proofs.Pattern.Within

/-! Patterns put into groups of their own and read as alternatives. Unless one of them leaves a
comment open, each is read as on its own, and only the numbers of the groups differ. -/

namespace Packrat.Pattern

/-! ## The numbers of groups -/

theorem groupCount_cats (ps : List Pattern) : (cats ps).groupCount = (ps.map groupCount).sum := by
  induction ps with
  | nil => rfl
  | cons p ps ih =>
    cases ps with
    | nil => rfl
    | cons q ps => exact congrArg (p.groupCount + ·) ih

theorem groupCount_alts (ps : List Pattern) : (alts ps).groupCount = (ps.map groupCount).sum := by
  induction ps with
  | nil => rfl
  | cons p ps ih =>
    cases ps with
    | nil => rfl
    | cons q ps => exact congrArg (p.groupCount + ·) ih

def Item.groupCount (x : Item) : Nat := x.pattern.groupCount

def Level.groupCount (l : Level) : Nat :=
  (l.branches.map Item.groupCount).sum + (l.items.map Item.groupCount).sum

def Frame.groupCount (frame : Frame) : Nat :=
  frame.outer.groupCount + if frame.number.isSome then 1 else 0

def State.groupCount (st : State) : Nat :=
  st.level.groupCount + (st.frames.map Frame.groupCount).sum

theorem Level.groupCount_push (l : Level) (x : Item) :
    (l.push x).groupCount = l.groupCount + x.groupCount := by
  simp only [groupCount, push, List.map_cons, List.sum_cons]
  omega

theorem Item.groupCount_sequence (xs : List Item) :
    (Item.sequence xs).groupCount = (xs.map Item.groupCount).sum := by
  simp only [Item.sequence, Item.groupCount, groupCount_cats, List.map_map]
  rfl

theorem Level.groupCount_branch (l : Level) : l.branch.groupCount = l.groupCount := by
  simp only [groupCount, branch, List.map_cons, List.sum_cons, List.map_nil, List.sum_nil,
    Item.groupCount_sequence, List.map_reverse, List.sum_reverse]
  omega

theorem Level.groupCount_finish (l : Level) : l.finish.groupCount = l.groupCount := by
  rw [← l.groupCount_branch]
  simp only [finish, Item.choice, Item.groupCount, groupCount_alts, groupCount, branch,
    List.map_map, List.map_reverse, List.sum_reverse, List.map_nil, List.sum_nil, Nat.add_zero]
  rfl

namespace State

variable {st st' : State}

theorem groupCount_push (st : State) (x : Item) :
    (st.push x).groupCount = st.groupCount + x.groupCount := by
  simp only [groupCount, push, Level.groupCount_push]
  omega

theorem groupCount_openGroup (st : State) (number : Option Nat) (f : Flags) :
    (st.openGroup number f).groupCount = st.groupCount + if number.isSome then 1 else 0 := by
  simp only [groupCount, openGroup, List.map_cons, List.sum_cons, Frame.groupCount]
  simp only [Level.groupCount, List.map_nil, List.sum_nil]
  omega

theorem groupCount_openNumbered (st : State) : st.openNumbered.groupCount = st.groupCount + 1 :=
  groupCount_openGroup { st with groups := st.groups + 1 } (some (st.groups + 1)) st.flags

theorem groupCount_closeGroup (h : st.closeGroup = .ok st') :
    st'.groups = st.groups ∧ st'.groupCount = st.groupCount := by
  unfold closeGroup at h
  split at h
  · cases h
  · next frame frames hframes =>
    cases h
    refine ⟨rfl, ?_⟩
    have hfinish := st.level.groupCount_finish
    simp only [groupCount, hframes, List.map_cons, List.sum_cons, Level.groupCount_push,
      Frame.groupCount]
    cases frame.number with
    | none =>
      simp only [Item.groupCount, Option.isSome_none, Bool.false_eq_true, if_false] at hfinish ⊢
      omega
    | some n =>
      simp only [Item.groupCount, Pattern.groupCount, Option.isSome_some, if_true] at hfinish ⊢
      omega

theorem groupCount_rep {least : Nat} {most : Option Nat} {greedy : Bool}
    (h : st.rep least most greedy = .ok st') :
    st'.groups = st.groups ∧ st'.groupCount = st.groupCount := by
  unfold rep at h
  split at h
  · cases h
  · next x items hitems =>
    split at h
    · cases h
    · cases h
      refine ⟨rfl, ?_⟩
      simp only [groupCount, Level.groupCount, hitems, List.map_cons, List.sum_cons]
      rfl

end State

theorem Op.groups_apply {op : Op} {st st' : State} (h : op.apply st = .ok st')
    (hst : st.groups = st.groupCount) : st'.groups = st'.groupCount := by
  cases op with
  | set s depth =>
    cases h
    rw [State.groupCount_push]
    exact hst
  | look l =>
    cases h
    rw [State.groupCount_push]
    exact hst
  | modes f =>
    cases h
    rw [State.groupCount_push]
    exact hst
  | openPlain f =>
    cases h
    rw [State.groupCount_openGroup]
    exact hst
  | openNumbered =>
    cases h
    rw [State.groupCount_openNumbered, ← hst]
    rfl
  | openNamed name =>
    simp only [apply] at h
    split at h
    · cases h
    · cases h
      rw [State.groupCount_openNumbered]
      exact congrArg (· + 1) hst
  | close =>
    obtain ⟨hgroups, hcount⟩ := State.groupCount_closeGroup h
    rw [hgroups, hcount, hst]
  | branch =>
    cases h
    refine hst.trans ?_
    simp only [State.groupCount, Level.groupCount_branch]
  | rep least most greedy =>
    obtain ⟨hgroups, hcount⟩ := State.groupCount_rep h
    rw [hgroups, hcount, hst]

theorem Reads.groups_eq {st st' : State} {cs left : List Char} (h : Reads st cs st' left)
    (hst : st.groups = st.groupCount) : st'.groups = st'.groupCount := by
  induction h with
  | refl => exact hst
  | step _ hstep _ ih =>
    obtain ⟨⟨op, rest⟩, -, h⟩ := bind_eq_ok.1 hstep
    obtain ⟨st₁, happly, h⟩ := bind_eq_ok.1 h
    cases h
    exact ih (Op.groups_apply happly hst)

theorem State.finish_eq_ok_iff {st : State} {p : Pattern} :
    st.finish = .ok p ↔
      st.frames = [] ∧ st.level.finish.depth ≤ nestingLimit ∧ st.level.finish.pattern = p := by
  unfold finish
  cases hframes : st.frames with
  | nil =>
    by_cases hdepth : nestingLimit < st.level.finish.depth
    · simp [hdepth, Nat.not_le.2 hdepth]
    · simp [hdepth, Nat.le_of_not_lt hdepth, pure, Except.pure]
  | cons frame frames => simp

theorem groups_of_finish {cs left : List Char} {st : State} {p : Pattern}
    (h : Reads {} cs st left) (hp : st.finish = .ok p) : st.groups = p.groupCount := by
  obtain ⟨hframes, -, rfl⟩ := State.finish_eq_ok_iff.1 hp
  rw [h.groups_eq rfl, State.groupCount, hframes]
  exact st.level.groupCount_finish.symm

/-! ## One pattern in a group -/

/-- A parenthesis behind the text is seen, since no comment is open there. -/
def ClosesComments (text : List Char) : Prop := read (text ++ [')']) = .error .groupUnopened

instance (text : List Char) : Decidable (ClosesComments text) :=
  inferInstanceAs (Decidable (_ = _))

theorem finish_ne_groupUnopened (st : State) : st.finish ≠ .error .groupUnopened := by
  unfold State.finish
  split
  · exact nofun
  · dsimp only
    split <;> exact nofun

theorem exists_reads_of_closesComments {text : List Char} {p : Pattern} (hread : read text = .ok p)
    (hclosed : ClosesComments text) :
    ∃ st left, Reads {} (text ++ [')']) st left ∧ st.flags.skip left = [')'] ∧ st.finish = .ok p := by
  obtain ⟨st, left, hreads, hend, hp⟩ := exists_reads hread
  obtain ⟨left', hreads', hleft | hleft⟩ := hreads.close hend
  · exact ⟨st, left', hreads', hleft, hp⟩
  · -- The parenthesis would be in a comment.
    refine absurd (hclosed.symm.trans ?_) (finish_ne_groupUnopened st).symm
    rw [read_eq, hreads'.readAll_eq, readAll_eq_finish hleft]

theorem head?_ne_of_read {text : List Char} {p : Pattern} (h : read text = .ok p)
    (rest : List Char) : text ≠ '?' :: rest := by
  rintro rfl
  have hskip : ({} : State).flags.skip ('?' :: rest) = '?' :: rest := rfl
  rw [read_eq, readAll_eq_step hskip] at h
  obtain ⟨x, hstep, -⟩ := bind_eq_ok.1 h
  obtain ⟨op, hop, hstep⟩ := bind_eq_ok.1 hstep
  obtain ⟨st, happly, -⟩ := bind_eq_ok.1 hstep
  cases hop
  cases happly

namespace State

structure Fresh (st : State) : Prop where
  frames : st.frames = []
  items : st.level.items = []
  flags : st.flags = {}

theorem Fresh.initial : Fresh {} := ⟨rfl, rfl, rfl⟩

theorem step_open {st : State} (hflags : st.flags = {}) {cs : List Char}
    (hcs : ∀ rest, cs ≠ '?' :: rest) : step st '(' cs = .ok (st.openNumbered, cs) := by
  have hop : readOp st.flags '(' cs = .ok (.openNumbered, cs) := by
    rw [hflags]
    change readOpening {} cs = _
    rcases cs with _ | ⟨c, cs⟩
    · rfl
    · have hc : c ≠ '?' := fun e => hcs cs (e ▸ rfl)
      simp [readOpening, Flags.skip, hc]
      rfl
  change (readOp st.flags '(' cs >>= fun x => _) = _
  rw [hop]
  rfl

def enclose (st inner : State) : State :=
  let x := inner.level.finish
  { st.openNumbered.within inner with
    frames := []
    level := ⟨st.level.branches,
      [⟨group (st.groups + 1) (x.pattern.renumber (st.groups + 1)), x.depth + 1, false⟩]⟩
    flags := {} }

theorem step_close {st inner : State} (hst : st.Fresh) (hframes : inner.frames = [])
    (more : List Char) :
    step (st.openNumbered.within inner) ')' more = .ok (st.enclose inner, more) := by
  change ((st.openNumbered.within inner).closeGroup >>= fun st => _) = _
  simp [closeGroup, enclose, within, openNumbered, openGroup, hframes, Level.finish_renumber,
    Item.renumber, Level.push, hst.items, hst.frames, hst.flags, pure, Except.pure, bind, Except.bind]

theorem within_empty {st : State} (hflags : st.flags = {}) :
    st.openNumbered.within {} = st.openNumbered := by
  simp [within, openNumbered, openGroup, Level.renumber, hflags]

end State

/-- Up to a parenthesis behind it the text is read into a state in which no group is open. -/
structure Encloses (text : List Char) (inner : State) : Prop where
  ne_question (rest : List Char) : text ≠ '?' :: rest
  frames : inner.frames = []
  reads : ∃ left, Reads {} (text ++ [')']) inner left ∧ inner.flags.skip left = [')']

theorem exists_encloses_of_read {text : List Char} {p : Pattern} (hread : read text = .ok p)
    (hclosed : ClosesComments text) :
    ∃ inner, Encloses text inner ∧ inner.level.finish.pattern = p ∧ inner.groups = p.groupCount := by
  obtain ⟨inner, left, hreads, hleft, hp⟩ := exists_reads_of_closesComments hread hclosed
  obtain ⟨hframes, -, hpattern⟩ := State.finish_eq_ok_iff.1 hp
  exact ⟨inner, ⟨head?_ne_of_read hread, hframes, left, hreads, hleft⟩, hpattern,
    groups_of_finish hreads hp⟩

namespace Encloses

variable {text : List Char} {inner : State} (h : Encloses text inner)

include h

theorem closesComments : ClosesComments text := by
  obtain ⟨left, hreads, hleft⟩ := h.reads
  rw [ClosesComments, read_eq, hreads.readAll_eq, readAll_eq_step hleft]
  change ((inner.closeGroup >>= fun st => _) >>= fun x => _) = _
  rw [State.closeGroup, h.frames]
  rfl

theorem reads_group {st : State} (hst : st.Fresh) {more : List Char}
    (hnames : st.names = [] ∨ ∃ q, readAll st ('(' :: (text ++ ')' :: more)) = .ok q) :
    Reads st ('(' :: (text ++ ')' :: more)) (st.enclose inner) more := by
  have hopen : step st '(' (text ++ ')' :: more) = .ok (st.openNumbered, text ++ ')' :: more) := by
    refine State.step_open hst.flags fun rest heq => ?_
    cases text with
    | nil => cases heq
    | cons c text =>
      cases heq
      exact h.ne_question text rfl
  have hskip : st.flags.skip ('(' :: (text ++ ')' :: more)) = '(' :: (text ++ ')' :: more) := by
    rw [hst.flags]
    rfl
  have happend : text ++ ')' :: more = text ++ [')'] ++ more := by simp
  have hinside : st.openNumbered.names = [] ∨
      ∃ q, readAll (st.openNumbered.within {}) (text ++ [')'] ++ more) = .ok q := by
    rw [readAll_eq_step hskip, hopen] at hnames
    rw [State.within_empty hst.flags, ← happend]
    exact hnames
  obtain ⟨left, hreads, hleft⟩ := h.reads
  have hne : left ≠ [] := by
    rintro rfl
    have := (inner.flags.skip_suffix []).length_le
    rw [hleft] at this
    cases this
  have hreads := hreads.within hinside hne
  rw [State.within_empty hst.flags, ← happend] at hreads
  have hskip' : (st.openNumbered.within inner).flags.skip (left ++ more) = ')' :: more := by
    refine (inner.flags.skip_append ?_ more).trans ?_
    · rw [hleft]
      exact List.cons_ne_nil _ _
    · rw [hleft]
      rfl
  exact .step hskip hopen (hreads.trans (.step hskip' (State.step_close hst h.frames more) (.refl _ _)))

end Encloses

/-! ## Alternatives -/

def glue : List (List Char) → List Char
  | [] => []
  | [text] => '(' :: (text ++ [')'])
  | text :: texts => '(' :: (text ++ ')' :: '|' :: glue texts)

/-- Patterns in groups of their own, numbered behind `k` in the order in which the groups open. -/
def numbered (k : Nat) : List Pattern → List Pattern
  | [] => []
  | p :: ps => group (k + 1) (p.renumber (k + 1)) :: numbered (k + 1 + p.groupCount) ps

theorem readAll_glue {texts : List (List Char)} {ps : List Pattern}
    (h : List.Forall₂ (fun text p => read text = .ok p ∧ ClosesComments text) texts ps)
    (hne : texts ≠ []) {st : State} (hst : st.Fresh) {q : Pattern}
    (hq : readAll st (glue texts) = .ok q) :
    q = alts ((st.level.branches.map (·.pattern)).reverse ++ numbered st.groups ps) := by
  induction h generalizing st with
  | nil => exact absurd rfl hne
  | @cons text p texts ps hp htexts ih =>
    obtain ⟨inner, hinner, hpattern, hgroups⟩ := exists_encloses_of_read hp.1 hp.2
    cases htexts with
    | nil =>
      rw [glue, (hinner.reads_group hst (.inr ⟨q, hq⟩)).readAll_eq, readAll_eq_finish rfl] at hq
      obtain ⟨-, -, rfl⟩ := State.finish_eq_ok_iff.1 hq
      simp [State.enclose, Level.finish, Level.branch, Item.choice, Item.sequence, cats, ← hpattern,
        numbered]
    | @cons text' p' texts ps hp' htexts =>
      have hq : readAll (st.enclose inner) ('|' :: glue (text' :: texts)) = .ok q :=
        (hinner.reads_group hst (.inr ⟨q, hq⟩)).readAll_eq.symm.trans hq
      rw [readAll_eq_step rfl] at hq
      have hfresh : State.Fresh { st.enclose inner with level := (st.enclose inner).level.branch } :=
        ⟨rfl, rfl, rfl⟩
      rw [ih (List.cons_ne_nil _ _) hfresh hq]
      simp [State.enclose, State.within, State.openNumbered, State.openGroup, Level.branch,
        Item.sequence, cats, hpattern, numbered, hgroups, Nat.add_comm]

theorem read_glue {texts : List (List Char)} {ps : List Pattern}
    (h : List.Forall₂ (fun text p => read text = .ok p ∧ ClosesComments text) texts ps)
    (hne : texts ≠ []) {q : Pattern} (hq : read (glue texts) = .ok q) : q = alts (numbered 0 ps) :=
  readAll_glue h hne .initial hq

/-! ## Alternatives that are accepted -/

theorem Item.depthOf_le {xs : List Item} {n : Nat} (h : ∀ x ∈ xs, x.depth ≤ n) :
    depthOf xs ≤ n + 1 := by
  have hfold (m : Nat) (hm : m ≤ n) : (xs.map (·.depth)).foldl max m ≤ n := by
    induction xs generalizing m with
    | nil => exact hm
    | cons x xs ih =>
      obtain ⟨hx, hxs⟩ := List.forall_mem_cons.1 h
      exact ih hxs _ (Nat.max_le.2 ⟨hm, hx⟩)
  unfold depthOf
  split
  · exact Nat.zero_le _
  · next x => exact Nat.le_succ_of_le (h x (List.mem_singleton_self x))
  · exact Nat.succ_le_succ (hfold 0 (Nat.zero_le n))

/-- The text is read in a group with no name in it, and it leaves room for a level above the group. -/
def Embeds (text : List Char) : Prop :=
  ∃ inner, Encloses text inner ∧ inner.names = [] ∧ inner.level.finish.depth + 2 ≤ nestingLimit

namespace Embeds

variable {text : List Char}

theorem of_reads {left : List Char} {inner : State} {p : Pattern} (hread : read text = .ok p)
    (hreads : Reads {} (text ++ [')']) inner left) (hleft : inner.flags.skip left = [')'])
    (hframes : inner.frames = []) (hnames : inner.names = [])
    (hdepth : inner.level.finish.depth + 2 ≤ nestingLimit) : Embeds text :=
  ⟨inner, ⟨head?_ne_of_read hread, hframes, left, hreads, hleft⟩, hnames, hdepth⟩

theorem closesComments (h : Embeds text) : ClosesComments text := by
  obtain ⟨inner, hinner, -⟩ := h
  exact hinner.closesComments

end Embeds

theorem exists_readAll_glue {texts : List (List Char)} (h : ∀ text ∈ texts, Embeds text)
    (hne : texts ≠ []) {st : State} (hst : st.Fresh) (hnames : st.names = [])
    (hdepth : ∀ x ∈ st.level.branches, x.depth + 1 ≤ nestingLimit) :
    ∃ q, readAll st (glue texts) = .ok q := by
  induction texts generalizing st with
  | nil => exact absurd rfl hne
  | cons text texts ih =>
    obtain ⟨⟨inner, hinner, hinnerNames, hinnerDepth⟩, htexts⟩ := List.forall_mem_cons.1 h
    -- The group becomes one more branch, and that nests as deep as its only item.
    have hbranch : ∀ x ∈ (st.enclose inner).level.branch.branches, x.depth + 1 ≤ nestingLimit :=
      List.forall_mem_cons.2 ⟨hinnerDepth, hdepth⟩
    cases texts with
    | nil =>
      rw [glue, (hinner.reads_group hst (.inl hnames)).readAll_eq, readAll_eq_finish rfl]
      refine ⟨_, State.finish_eq_ok_iff.2 ⟨rfl, ?_, rfl⟩⟩
      refine Item.depthOf_le fun x hx => ?_
      exact Nat.le_sub_one_of_lt (hbranch x (List.mem_reverse.1 hx))
    | cons text' texts =>
      have hreads : readAll st (glue (text :: text' :: texts)) =
          readAll (st.enclose inner) ('|' :: glue (text' :: texts)) :=
        (hinner.reads_group hst (.inl hnames)).readAll_eq
      rw [hreads, readAll_eq_step rfl]
      refine @ih htexts (List.cons_ne_nil _ _)
        { st.enclose inner with level := (st.enclose inner).level.branch } ⟨rfl, rfl, rfl⟩ ?_ hbranch
      change inner.names ++ st.names = []
      rw [hinnerNames, hnames, List.append_nil]

theorem exists_read_glue {texts : List (List Char)} (h : ∀ text ∈ texts, Embeds text)
    (hne : texts ≠ []) : ∃ q, read (glue texts) = .ok q :=
  exists_readAll_glue h hne .initial rfl nofun

end Packrat.Pattern
