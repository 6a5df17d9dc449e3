import Packrat.Pattern.Match

namespace Packrat

open Text (Cursor byteSize)

namespace Text

theorem byteSize_append (xs ys : List Char) : byteSize (xs ++ ys) = byteSize xs + byteSize ys := by
  induction xs with
  | nil => exact (Nat.zero_add _).symm
  | cons x xs ih => rw [List.cons_append, byteSize, byteSize, ih, Nat.add_assoc]

def Cursor.pass (p : Cursor) (taken rest : List Char) : Cursor :=
  ⟨taken.reverse ++ p.before, rest, p.offset + byteSize taken⟩

theorem Cursor.offset_pass (p : Cursor) (taken rest : List Char) :
    (p.pass taken rest).offset = p.offset + byteSize taken := rfl

theorem Cursor.pass_pass (p : Cursor) (xs ys rest rest' : List Char) :
    (p.pass xs rest).pass ys rest' = p.pass (xs ++ ys) rest' := by
  simp [pass, byteSize_append, Nat.add_assoc]

theorem Cursor.next?_cons {p : Cursor} {c : Char} {cs : List Char} (h : p.after = c :: cs) :
    p.next? = some (c, p.pass [c] cs) := by
  rw [next?, h]
  rfl

end Text

namespace CharSet

variable (a b c : Char) (s t : CharSet)

@[simp] theorem mem_single : (single a).mem c = (c == a) := rfl

@[simp] theorem mem_range : (range a b).mem c = (decide (a ≤ c) && decide (c ≤ b)) := rfl

@[simp] theorem mem_union : (union s t).mem c = (s.mem c || t.mem c) := rfl

@[simp] theorem mem_compl : (compl s).mem c = !s.mem c := rfl

end CharSet

namespace Pattern

def Progress.pass (s : Progress) (taken rest : List Char) : Progress :=
  { s with cursor := s.cursor.pass taken rest }

@[simp] theorem Progress.after_pass (s : Progress) (taken rest : List Char) :
    (s.pass taken rest).cursor.after = rest := rfl

theorem Progress.pass_pass (s : Progress) (xs ys rest rest' : List Char) :
    (s.pass xs rest).pass ys rest' = s.pass (xs ++ ys) rest' := by
  simp only [pass, Cursor.pass_pass]

theorem samePlace_pass (s : Progress) (c : Char) (taken rest : List Char) :
    (s.pass (c :: taken) rest).samePlace s = false := by
  have := c.utf8Size_pos
  simp [Progress.samePlace, Progress.pass, Cursor.pass, byteSize]
  omega

theorem prefer_true (more done : Unit → Option Progress) :
    Matcher.prefer true more done = (more ()).or (done ()) := by
  unfold Matcher.prefer
  cases more () <;> rfl

section Run

variable {fuel : Nat} {s : Progress} {k : Continuation}

theorem run_cat (p q : Pattern) : run fuel (cat p q) s k = run fuel p s fun t => run fuel q t k := rfl

theorem run_alt (p q : Pattern) :
    run fuel (alt p q) s k = (run fuel p s k).or (run fuel q s k) := by
  rw [run]
  cases run fuel p s k <;> rfl

theorem run_set (cs : CharSet) :
    run fuel (set cs) s k =
      s.cursor.next?.bind fun x => if cs.mem x.1 then k { s with cursor := x.2 } else none := by
  rw [run]
  cases s.cursor.next? <;> rfl

theorem run_set_nil {cs : CharSet} (h : s.cursor.after = []) : run fuel (set cs) s k = none := by
  rw [run_set, Cursor.next?, h]
  rfl

theorem run_set_cons {cs : CharSet} {c : Char} {rest : List Char} (h : s.cursor.after = c :: rest) :
    run fuel (set cs) s k = if cs.mem c then k (s.pass [c] rest) else none := by
  rw [run_set, Cursor.next?_cons h]
  rfl

end Run

end Pattern

end Packrat
